import LoanClosing.Proofs.Placeholder.Segment

/-!
# Replacing what is between two places

The place behind some glyphs is the number of the leaf that they end in and the bytes of that leaf
so far. Replacing what is between two such places, by bytes and leaf by leaf, puts the text in place
of the glyphs between them, with the seams of these behind it. It always succeeds, changes nothing
in front of the first place, and keeps the formatting of every leaf.
-/

namespace LoanClosing

namespace Glyph

/-- The glyphs of leaves, with a seam behind each of them. -/
def lines (texts : List (List Char)) : List Glyph := texts.flatMap fun cs ↦ ofChars cs ++ [.seam]

/-- Glyphs are whole leaves and the beginning of another one. -/
theorem exists_eq_lines (glyphs : List Glyph) :
    ∃ lead last, glyphs = lines lead ++ ofChars last := by
  induction glyphs with
  | nil => exact ⟨[], [], rfl⟩
  | cons glyph glyphs ih =>
    obtain ⟨lead, last, rfl⟩ := ih
    cases glyph with
    | seam => exact ⟨[] :: lead, last, rfl⟩
    | char c =>
      cases lead with
      | nil => exact ⟨[], c :: last, rfl⟩
      | cons cs lead => exact ⟨(c :: cs) :: lead, last, rfl⟩

/-- Whole leaves come first. -/
theorem texts_lines_append (lead : List (List Char)) (glyphs : List Glyph) :
    texts (lines lead ++ glyphs) = lead ++ texts glyphs := by
  induction lead with
  | nil => rfl
  | cons cs lead ih =>
    have hs : lines (cs :: lead) ++ glyphs = ofChars cs ++ .seam :: (lines lead ++ glyphs) := by
      simp [lines]
    rw [hs, texts_ofChars_append_seam, ih, List.cons_append]

/-- Characters come in front of the first leaf. -/
theorem texts_ofChars_append {glyphs : List Glyph} {head : List Char} {tail : List (List Char)}
    (h : texts glyphs = head :: tail) (cs : List Char) :
    texts (ofChars cs ++ glyphs) = (cs ++ head) :: tail := by
  induction cs with
  | nil => exact h
  | cons c cs ih => exact texts_char ih c

/-- There is a first leaf. -/
theorem exists_texts_eq_cons (glyphs : List Glyph) : ∃ head tail, texts glyphs = head :: tail :=
  List.exists_cons_of_length_eq_add_one (length_texts glyphs)

/-- The seams of whole leaves. -/
theorem filter_seam_lines (lead : List (List Char)) (last : List Char) :
    (lines lead ++ ofChars last).filter (· == .seam) = lines (lead.map fun _ ↦ []) := by
  have hc (cs : List Char) : (ofChars cs).filter (· == .seam) = [] := by simp [ofChars]
  induction lead with
  | nil => exact hc last
  | cons cs lead ih =>
    have hs : lines (cs :: lead) ++ ofChars last =
        ofChars cs ++ .seam :: (lines lead ++ ofChars last) := by
      simp [lines]
    rw [hs, List.filter_append, hc, List.filter_cons_of_pos rfl, ih]
    rfl

end Glyph

namespace Placeholder

open Glyph

namespace Place

/-- Where the text of a paragraph begins. -/
def start : Place := ⟨0, 0⟩

/-- The place behind glyphs that begin at a place. -/
def behind (place : Place) : List Glyph → Place
  | [] => place
  | .char c :: glyphs => (place.after c).behind glyphs
  | .seam :: glyphs => behind ⟨place.leaf + 1, 0⟩ glyphs

theorem behind_append (place : Place) (first rest : List Glyph) :
    place.behind (first ++ rest) = (place.behind first).behind rest := by
  induction first generalizing place with
  | nil => rfl
  | cons glyph first ih =>
    cases glyph with
    | seam => exact ih _
    | char c => exact ih _

/-- Characters add their bytes. -/
theorem behind_ofChars (place : Place) (cs : List Char) :
    place.behind (ofChars cs) = ⟨place.leaf, place.offset + Text.byteCount cs⟩ := by
  induction cs generalizing place with
  | nil => rfl
  | cons c cs ih =>
    change (place.after c).behind (ofChars cs) = _
    rw [ih, Text.byteCount_cons, after, Nat.add_assoc]

/-- The place behind whole leaves and the beginning of another one. -/
theorem behind_lines (place : Place) (cs : List Char) (lead : List (List Char)) (last : List Char) :
    place.behind (lines (cs :: lead) ++ ofChars last) =
      ⟨place.leaf + lead.length + 1, Text.byteCount last⟩ := by
  induction lead generalizing place cs with
  | nil =>
    have hs : lines [cs] ++ ofChars last = ofChars cs ++ .seam :: ofChars last := by simp [lines]
    rw [hs, behind_append, behind_ofChars, behind, behind_ofChars, Nat.zero_add]
    rfl
  | cons ds lead ih =>
    have hs : lines (cs :: ds :: lead) ++ ofChars last =
        ofChars cs ++ .seam :: (lines (ds :: lead) ++ ofChars last) := by simp [lines]
    rw [hs, behind_append, behind_ofChars, behind, ih, List.length_cons,
      Nat.add_right_comm place.leaf, Nat.add_assoc place.leaf]

/-- The place behind glyphs from the beginning of a paragraph on. -/
theorem start_behind_lines (lead : List (List Char)) (last : List Char) :
    start.behind (lines lead ++ ofChars last) = ⟨lead.length, Text.byteCount last⟩ := by
  cases lead with
  | nil => exact (behind_ofChars start last).trans (by simp [start])
  | cons cs lead => rw [behind_lines, List.length_cons, start, Nat.zero_add]

end Place

/-! ### Edits of leaves -/

variable {leaf first last : Leaf} {lead between rest : List Leaf}

/-- An edit of one leaf leaves all others. -/
theorem editLeaf?_append (edit : List Char → Option (List Char)) (lead : List Leaf) (leaf : Leaf)
    (rest : List Leaf) :
    editLeaf? edit lead.length (lead ++ leaf :: rest) =
      (edit leaf.text.toList).map fun cs ↦
        lead ++ { leaf with text := String.ofList cs } :: rest := by
  induction lead with
  | nil => rfl
  | cons other lead ih =>
    rw [List.length_cons, List.cons_append, editLeaf?, ih, Option.map_map]
    rfl

/-- Leaves between others are cleared. -/
theorem clearLeaves_append (lead between rest : List Leaf) :
    clearLeaves lead.length (lead.length + between.length) (lead ++ (between ++ rest)) =
      lead ++ (between.map (fun leaf ↦ { leaf with text := "" }) ++ rest) := by
  have ht : (lead ++ (between ++ rest)).take (lead.length + between.length) = lead ++ between := by
    rw [← List.append_assoc, ← List.length_append, List.take_left]
  have hd : (lead ++ (between ++ rest)).drop (lead.length + between.length) = rest := by
    rw [← List.append_assoc, ← List.length_append, List.drop_left]
  rw [clearLeaves, ht, hd, List.take_left, List.drop_left, List.append_assoc]

/-- What is between two places of one leaf is replaced there. -/
theorem replaceSpan?_inside {before old after : List Char} (lead : List Leaf)
    (h : leaf.text.toList = before ++ old ++ after) (rest : List Leaf) (piece : List Char) :
    replaceSpan? ⟨lead.length, Text.byteCount before⟩
        ⟨lead.length, Text.byteCount before + Text.byteCount old⟩ piece (lead ++ leaf :: rest) =
      some (lead ++ { leaf with text := String.ofList (before ++ piece ++ after) } :: rest) := by
  rw [replaceSpan?, if_pos rfl, editLeaf?_append, h, Text.replaceBytes?_append, Option.map_some]

/-- Over several leaves, the first one is cut off and gets the text, those between are cleared, and
the last one loses its beginning. -/
theorem replaceSpan?_across {before old old' after : List Char} (lead between : List Leaf)
    (hf : first.text.toList = before ++ old) (hl : last.text.toList = old' ++ after)
    (rest : List Leaf) (piece : List Char) :
    replaceSpan? ⟨lead.length, Text.byteCount before⟩
        ⟨lead.length + between.length + 1, Text.byteCount old'⟩ piece
        (lead ++ first :: (between ++ last :: rest)) =
      some (lead ++ { first with text := String.ofList (before ++ piece) } ::
        (between.map (fun leaf ↦ { leaf with text := "" }) ++
          { last with text := String.ofList after } :: rest)) := by
  have hn : lead.length ≠ lead.length + between.length + 1 := by omega
  have hlt : lead.length < lead.length + between.length + 1 := by omega
  have hcut : editLeaf? (fun cs ↦ (Text.truncateAt? (Text.byteCount before) cs).map (· ++ piece))
      lead.length (lead ++ first :: (between ++ last :: rest)) =
      some (lead ++ { first with text := String.ofList (before ++ piece) } ::
        (between ++ last :: rest)) := by
    rw [editLeaf?_append, hf, Text.truncateAt?_append, Option.map_some, Option.map_some]
  generalize { first with text := String.ofList (before ++ piece) } = cut at hcut ⊢
  have hclear : clearLeaves (lead.length + 1) (lead.length + between.length + 1)
      (lead ++ cut :: (between ++ last :: rest)) =
      lead ++ cut :: between.map (fun leaf ↦ { leaf with text := "" }) ++ last :: rest := by
    have h := clearLeaves_append (lead ++ [cut]) between (last :: rest)
    rw [List.length_append, List.length_singleton, Nat.add_right_comm] at h
    simpa using h
  have hlast : Text.replaceBytes? 0 (Text.byteCount old') [] last.text.toList = some after := by
    rw [hl]
    simpa using Text.replaceBytes?_append [] old' after []
  have hedit := editLeaf?_append (Text.replaceBytes? 0 (Text.byteCount old') [])
    (lead ++ cut :: between.map (fun leaf ↦ { leaf with text := "" })) last rest
  rw [List.length_append, List.length_cons, List.length_map, ← Nat.add_assoc, hlast] at hedit
  simp only [replaceSpan?, if_neg hn, if_pos hlt, hcut]
  rw [Option.bind_eq_bind, Option.bind_some, hclear, hedit, Option.map_some, List.append_assoc,
    List.cons_append]

/-! ### Edits of glyphs -/

/-- Replacing what is between the places behind glyphs puts the text in place of the glyphs between
them, and their seams behind it. -/
theorem exists_replaceSpan? {leaves : List Leaf} {before mid after : List Glyph}
    (h : leaves.map (·.text.toList) = texts (before ++ (mid ++ after))) (piece : List Char) :
    ∃ filled,
      replaceSpan? (Place.start.behind before) (Place.start.behind (before ++ mid)) piece leaves =
        some filled ∧
      filled.map (·.text.toList) =
        texts (before ++ (ofChars piece ++ mid.filter (· == .seam) ++ after)) ∧
      filled.map (·.format) = leaves.map (·.format) := by
  obtain ⟨lead, cs, rfl⟩ := exists_eq_lines before
  obtain ⟨inner, ds, rfl⟩ := exists_eq_lines mid
  obtain ⟨head, tail, ht⟩ := exists_texts_eq_cons after
  rw [Place.behind_append Place.start (lines lead ++ ofChars cs), Place.start_behind_lines,
    filter_seam_lines]
  simp only [List.append_assoc, texts_lines_append] at h ⊢
  obtain ⟨before, rest, rfl, rfl, hrest⟩ := List.map_eq_append_iff.mp h
  cases inner with
  | nil =>
    -- The span lies in one leaf.
    have hleaf : texts (ofChars cs ++ (ofChars ds ++ after)) = (cs ++ ds ++ head) :: tail := by
      rw [← List.append_assoc, ← ofChars_append, texts_ofChars_append ht]
    have hfill : texts (ofChars cs ++ (ofChars piece ++ after)) =
        (cs ++ piece ++ head) :: tail := by
      rw [← List.append_assoc, ← ofChars_append, texts_ofChars_append ht]
    obtain ⟨leaf, rest, rfl, hl, hr⟩ := List.map_eq_cons_iff.mp (hrest.trans hleaf)
    have hspan := replaceSpan?_inside before hl rest piece
    refine ⟨before ++ { leaf with text := String.ofList (cs ++ piece ++ head) } :: rest, ?_, ?_, ?_⟩
    · rw [List.length_map, lines, List.flatMap_nil, List.nil_append, Place.behind_ofChars]
      exact hspan
    · rw [List.map_nil, lines, List.flatMap_nil, List.nil_append, hfill, List.map_append,
        List.map_cons, String.toList_ofList, hr]
    · simp
  | cons es inner =>
    -- The span begins in one leaf and ends in a later one.
    have hleaf : texts (ofChars cs ++ (lines (es :: inner) ++ (ofChars ds ++ after))) =
        (cs ++ es) :: (inner ++ (ds ++ head) :: tail) := by
      apply texts_ofChars_append
      rw [texts_lines_append, texts_ofChars_append ht, List.cons_append]
    have hfill : texts (ofChars cs ++ (ofChars piece ++
        (lines ((es :: inner).map fun _ ↦ []) ++ after))) =
        (cs ++ piece) :: (inner.map (fun _ ↦ []) ++ head :: tail) := by
      have hlines : texts (lines ([] :: inner.map fun _ ↦ []) ++ after) =
          [] :: (inner.map (fun _ ↦ []) ++ head :: tail) := by
        rw [texts_lines_append, ht, List.cons_append]
      rw [← List.append_assoc, ← ofChars_append, List.map_cons, texts_ofChars_append hlines,
        List.append_nil]
    obtain ⟨first, others, rfl, hf, ho⟩ := List.map_eq_cons_iff.mp (hrest.trans hleaf)
    obtain ⟨between, others, rfl, rfl, hlast⟩ := List.map_eq_append_iff.mp ho
    obtain ⟨last, rest, rfl, hl, hr⟩ := List.map_eq_cons_iff.mp hlast
    have hspan := replaceSpan?_across before between hf hl rest piece
    refine ⟨before ++ { first with text := String.ofList (cs ++ piece) } ::
      (between.map (fun leaf ↦ { leaf with text := "" }) ++
        { last with text := String.ofList head } :: rest), ?_, ?_, ?_⟩
    · rw [List.length_map, Place.behind_lines, List.length_map]
      exact hspan
    · rw [hfill, ← hr]
      simp
    · simp

end Placeholder

end LoanClosing
