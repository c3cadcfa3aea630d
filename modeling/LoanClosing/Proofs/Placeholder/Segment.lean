import LoanClosing.Document.Substitution
import Mathlib.Data.List.TakeWhile

/-!
# Segments of a paragraph

The text of a paragraph is taken as glyphs: characters, and seams between two leaves. They fall into
segments, a placeholder or a single glyph each, with one equation for each way in which a segment
may begin, and the induction that follows them. No glyph is lost, and filling a segment keeps the
seams, so filled segments make up a text for each leaf. The tallies of several segments add up.
-/

namespace LoanClosing

/-- A part of the text of a paragraph. -/
inductive Glyph where
  | char (c : Char)
  /-- The place where one leaf ends and the next begins. -/
  | seam
  deriving DecidableEq, Repr

namespace Glyph

/-- The character of a glyph. -/
def char? : Glyph → Option Char
  | .char c => some c
  | .seam => none

/-- Whether a glyph is a brace. -/
def isBrace (g : Glyph) : Bool := g == .char '\x7b' || g == .char '\x7d'

/-- The characters of glyphs. -/
def chars (glyphs : List Glyph) : List Char := glyphs.filterMap char?

/-- The glyphs of a text. -/
def ofChars (cs : List Char) : List Glyph := cs.map .char

/-- The glyphs of leaves. -/
def ofTexts : List (List Char) → List Glyph
  | [] => []
  | [cs] => ofChars cs
  | cs :: more => ofChars cs ++ .seam :: ofTexts more

/-- The texts of the leaves that glyphs make up; there is always at least one. -/
def texts : List Glyph → List (List Char)
  | [] => [[]]
  | .seam :: glyphs => [] :: texts glyphs
  | .char c :: glyphs =>
    match texts glyphs with
    | [] => [[c]]
    | cs :: more => (c :: cs) :: more

end Glyph

/-- A stretch of the text of a paragraph. -/
inductive Segment where
  | plain (glyph : Glyph)
  /-- A placeholder, by the glyphs between its braces. -/
  | placeholder (inner : List Glyph)
  deriving DecidableEq, Repr

namespace Segment

/-- The segments of glyphs. -/
def scan : List Glyph → List Segment
  | [] => []
  | glyph :: glyphs =>
    if glyph = .char '\x7b' then
      match glyphs.dropWhile (!·.isBrace) with
      | .char '\x7d' :: _ =>
        .placeholder (glyphs.takeWhile (!·.isBrace)) ::
          scan (glyphs.drop ((glyphs.takeWhile (!·.isBrace)).length + 1))
      | _ => .plain glyph :: scan glyphs
    else .plain glyph :: scan glyphs
termination_by glyphs => glyphs.length
decreasing_by all_goals simp only [List.length_cons, List.length_drop]; omega

/-- The glyphs of a segment. -/
def glyphs : Segment → List Glyph
  | .plain glyph => [glyph]
  | .placeholder inner => .char '\x7b' :: (inner ++ [.char '\x7d'])

/-- The key of a placeholder. -/
def key? : Segment → Option (List Char)
  | .plain _ => none
  | .placeholder inner => some (Glyph.chars inner)

end Segment

namespace Placeholder

namespace Tally

/-- Several tallies together. -/
def sum : List Tally → Tally
  | [] => zero
  | tally :: tallies => tally.add (sum tallies)

/-- The tally of one placeholder. -/
def ofFilling : Filling → Tally
  | .keep => zero
  | .put _ => { zero with replaced := 1 }
  | .missing => { zero with replaced := 1, missing := 1 }
  | .unqualified => { zero with unqualified := 1 }

end Tally

/-- The glyphs that take the place of a segment. The seams inside a placeholder stay, behind its
text. -/
def fillSegment (scope : Scope) : Segment → List Glyph
  | .plain glyph => [glyph]
  | .placeholder inner =>
    match filling scope (Glyph.chars inner) with
    | .keep | .unqualified => (Segment.placeholder inner).glyphs
    | .put text => Glyph.ofChars text ++ inner.filter (· == .seam)
    | .missing => inner.filter (· == .seam)

/-- The tally of a segment. -/
def tallySegment (scope : Scope) : Segment → Tally
  | .plain _ => .zero
  | .placeholder inner => .ofFilling (filling scope (Glyph.chars inner))

/-- Whether the last brace of a text opens. -/
def endsOpen (cs : List Char) : Bool :=
  (cs.filter fun c ↦ c == '\x7b' || c == '\x7d').getLast? == some '\x7b'

end Placeholder

namespace Block

/-- The segments of a paragraph. -/
def segments (block : Block) : List Segment :=
  Segment.scan (Glyph.ofTexts (block.leaves.map (·.text.toList)))

/-- A paragraph with other texts in its leaves. -/
def withTexts (block : Block) (texts : List (List Char)) : Block :=
  { block with
    leaves :=
      List.zipWith (fun leaf cs ↦ { leaf with text := String.ofList cs }) block.leaves texts }

end Block

namespace Glyph

@[simp] theorem chars_nil : chars [] = [] := rfl
@[simp] theorem chars_char (c : Char) (glyphs : List Glyph) :
    chars (.char c :: glyphs) = c :: chars glyphs := rfl
@[simp] theorem chars_seam (glyphs : List Glyph) : chars (.seam :: glyphs) = chars glyphs := rfl

@[simp] theorem chars_append (first rest : List Glyph) :
    chars (first ++ rest) = chars first ++ chars rest := by
  simp [chars, List.filterMap_append]

@[simp] theorem chars_ofChars (cs : List Char) : chars (ofChars cs) = cs := by
  induction cs with
  | nil => rfl
  | cons c cs ih =>
    rw [ofChars, List.map_cons, chars_char]
    exact congrArg (c :: ·) ih

@[simp] theorem ofChars_append (cs ds : List Char) :
    ofChars (cs ++ ds) = ofChars cs ++ ofChars ds := by
  simp [ofChars]

/-- Seams have no characters. -/
@[simp] theorem chars_filter_seam (glyphs : List Glyph) :
    chars (glyphs.filter (· == .seam)) = [] := by
  induction glyphs with
  | nil => rfl
  | cons glyph glyphs ih => cases glyph <;> simp [ih]

@[simp] theorem count_seam_ofChars (cs : List Char) : (ofChars cs).count .seam = 0 := by
  simp [ofChars, List.count_eq_zero]

/-- The characters of leaves are those of their glyphs. -/
theorem chars_ofTexts (texts : List (List Char)) : chars (ofTexts texts) = texts.flatten := by
  induction texts with
  | nil => rfl
  | cons cs texts ih =>
    cases texts with
    | nil => simp [ofTexts]
    | cons ds texts => simpa [ofTexts] using ih

/-- There is a seam between every two leaves. -/
theorem count_seam_ofTexts (cs : List Char) (texts : List (List Char)) :
    (ofTexts (cs :: texts)).count .seam = texts.length := by
  induction texts generalizing cs with
  | nil => simp [ofTexts]
  | cons ds texts ih =>
    rw [ofTexts, List.count_append, List.count_cons, ih ds, List.length_cons]
    · simp
    · simp

/-- Glyphs make up one leaf more than they have seams. -/
theorem length_texts (glyphs : List Glyph) :
    (texts glyphs).length = glyphs.count .seam + 1 := by
  induction glyphs with
  | nil => rfl
  | cons glyph glyphs ih =>
    cases glyph with
    | seam => simp [texts, ih]
    | char c =>
      cases ht : texts glyphs with
      | nil => simp [ht] at ih
      | cons cs more => simpa [texts, ht] using ih

/-- The leaves that glyphs make up have the characters of the glyphs. -/
theorem flatten_texts (glyphs : List Glyph) : (texts glyphs).flatten = chars glyphs := by
  induction glyphs with
  | nil => rfl
  | cons glyph glyphs ih =>
    cases glyph with
    | seam => simp [texts, ih]
    | char c =>
      cases ht : texts glyphs with
      | nil => simp [texts, ht, ← ih]
      | cons cs more => simp [texts, ht, ← ih]

/-- A character begins the first leaf. -/
theorem texts_char {glyphs : List Glyph} {cs : List Char} {more : List (List Char)}
    (h : texts glyphs = cs :: more) (c : Char) :
    texts (.char c :: glyphs) = (c :: cs) :: more := by
  simp only [texts, h]

/-- Characters alone make up one leaf. -/
theorem texts_ofChars (cs : List Char) : texts (ofChars cs) = [cs] := by
  induction cs with
  | nil => rfl
  | cons c cs ih => exact texts_char ih c

/-- Characters in front of glyphs belong to the first leaf. -/
theorem texts_ofChars_append_seam (cs : List Char) (glyphs : List Glyph) :
    texts (ofChars cs ++ .seam :: glyphs) = cs :: texts glyphs := by
  induction cs with
  | nil => rfl
  | cons c cs ih => exact texts_char ih c

/-- The leaves that the glyphs of leaves make up are these leaves. -/
theorem texts_ofTexts (cs : List Char) (more : List (List Char)) :
    texts (ofTexts (cs :: more)) = cs :: more := by
  induction more generalizing cs with
  | nil => exact texts_ofChars cs
  | cons ds more ih =>
    have ho : ofTexts (cs :: ds :: more) = ofChars cs ++ .seam :: ofTexts (ds :: more) := rfl
    rw [ho, texts_ofChars_append_seam, ih]

end Glyph

namespace Segment

@[simp] theorem scan_nil : scan [] = [] := by
  rw [scan]

/-- A glyph that is no opening brace stands for itself. -/
theorem scan_of_ne {glyph : Glyph} (h : glyph ≠ .char '\x7b') (glyphs : List Glyph) :
    scan (glyph :: glyphs) = .plain glyph :: scan glyphs := by
  rw [scan, if_neg h]

/-- An opening brace that no closing brace follows as the next one stands for itself. -/
theorem scan_of_unclosed {glyphs : List Glyph}
    (h : ∀ rest, glyphs.dropWhile (!·.isBrace) ≠ .char '\x7d' :: rest) :
    scan (.char '\x7b' :: glyphs) = .plain (.char '\x7b') :: scan glyphs := by
  rw [scan, if_pos rfl]
  split
  · next rest hr => exact absurd hr (h rest)
  · rfl

/-- An opening brace and the closing brace that is the next one enclose a placeholder. -/
theorem scan_placeholder {inner : List Glyph} (h : ∀ glyph ∈ inner, glyph.isBrace = false)
    (rest : List Glyph) :
    scan (.char '\x7b' :: (inner ++ .char '\x7d' :: rest)) = .placeholder inner :: scan rest := by
  have hi : ∀ glyph ∈ inner, (!glyph.isBrace) = true := by simpa using h
  have hd : (inner ++ .char '\x7d' :: rest).dropWhile (!·.isBrace) = .char '\x7d' :: rest := by
    rw [List.dropWhile_append_of_pos hi]
    rfl
  have ht : (inner ++ .char '\x7d' :: rest).takeWhile (!·.isBrace) = inner := by
    rw [List.takeWhile_append_of_pos hi]
    simp [Glyph.isBrace]
  rw [scan, if_pos rfl, hd, ht]
  simp

/-- Induction along the segments of glyphs: a placeholder counts as one step. -/
@[elab_as_elim]
theorem induction_on_scan {motive : List Glyph → Prop} (glyphs : List Glyph)
    (nil : motive [])
    (other : ∀ glyph glyphs, glyph ≠ .char '\x7b' → motive glyphs → motive (glyph :: glyphs))
    (unclosed : ∀ glyphs, (∀ rest, glyphs.dropWhile (!·.isBrace) ≠ .char '\x7d' :: rest) →
      motive glyphs → motive (.char '\x7b' :: glyphs))
    (placeholder : ∀ inner rest, (∀ glyph ∈ inner, glyph.isBrace = false) → motive rest →
      motive (.char '\x7b' :: (inner ++ .char '\x7d' :: rest))) :
    motive glyphs := by
  induction hn : glyphs.length using Nat.strongRecOn generalizing glyphs with
  | ind n ih =>
    subst hn
    cases glyphs with
    | nil => exact nil
    | cons glyph glyphs =>
      have hm : motive glyphs := ih glyphs.length (Nat.lt_succ_self _) glyphs rfl
      by_cases hg : glyph = .char '\x7b'
      · subst hg
        by_cases hr : ∃ rest, glyphs.dropWhile (!·.isBrace) = .char '\x7d' :: rest
        · obtain ⟨rest, hr⟩ := hr
          have he : glyphs.takeWhile (!·.isBrace) ++ .char '\x7d' :: rest = glyphs := by
            rw [← hr, List.takeWhile_append_dropWhile]
          have hl : rest.length < (Glyph.char '\x7b' :: glyphs).length := by
            rw [← he]
            simp only [List.length_cons, List.length_append]
            omega
          rw [← he]
          apply placeholder _ rest _ (ih rest.length hl rest rfl)
          intro inner hi
          simpa using List.mem_takeWhile_imp hi
        · exact unclosed glyphs (fun rest he ↦ hr ⟨rest, he⟩) hm
      · exact other glyph glyphs hg hm

/-- The segments of glyphs are made of these glyphs. -/
theorem flatMap_glyphs_scan (all : List Glyph) : (scan all).flatMap glyphs = all := by
  induction all using induction_on_scan with
  | nil => simp
  | other glyph rest h ih =>
    rw [scan_of_ne h, List.flatMap_cons, ih]
    rfl
  | unclosed rest h ih =>
    rw [scan_of_unclosed h, List.flatMap_cons, ih]
    rfl
  | placeholder inner rest h ih =>
    rw [scan_placeholder h, List.flatMap_cons, ih, glyphs]
    simp

end Segment

namespace Placeholder.Tally

/-- Adding nothing in front changes no tally. -/
@[simp] theorem zero_add (tally : Tally) : zero.add tally = tally := by
  simp [zero, add]

/-- Adding nothing behind changes no tally. -/
@[simp] theorem add_zero (tally : Tally) : tally.add zero = tally := by
  simp [zero, add]

/-- Tallies add up in any grouping. -/
theorem add_assoc (a b c : Tally) : (a.add b).add c = a.add (b.add c) := by
  simp [add, Nat.add_assoc, Bool.or_assoc]

end Placeholder.Tally

namespace Placeholder

/-- Filling a segment keeps its seams. -/
theorem count_seam_fillSegment (scope : Scope) (segment : Segment) :
    (fillSegment scope segment).count .seam = segment.glyphs.count .seam := by
  cases segment with
  | plain glyph => rfl
  | placeholder inner =>
    rw [fillSegment]
    cases filling scope (Glyph.chars inner) <;>
      simp [Segment.glyphs, List.count_append, List.count_filter]

/-- Filling segments keeps their seams. -/
theorem count_seam_flatMap_fillSegment (scope : Scope) (segments : List Segment) :
    (segments.flatMap (fillSegment scope)).count .seam =
      (segments.flatMap Segment.glyphs).count .seam := by
  induction segments with
  | nil => rfl
  | cons segment segments ih =>
    rw [List.flatMap_cons, List.flatMap_cons, List.count_append, List.count_append, ih,
      count_seam_fillSegment]

end Placeholder

end LoanClosing
