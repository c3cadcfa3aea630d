import LoanClosing.Document.Marker
import LoanClosing.Proofs.Text.Recased
import LoanClosing.Proofs.Text.Words

/-!
# The words of a marker

Which marker a paragraph is depends on its words alone: where its leaves begin and end, how far it
is indented and which blanks stand between two words make no difference. Each kind of marker is one
form of words, and a paragraph of any other words is no marker.
-/

namespace LoanClosing.Marker

open Text

variable {w : List Char} {ws : List (List Char)} {marker other : Marker}

/-- The words are those of a marker. -/
def IsWording (ws : List (List Char)) : Marker → Prop
  | .endIf => ws = ["ENDIF".toList]
  | .endForEach => ws = ["ENDFOREACH".toList]
  | .forEach item source =>
    ∃ joiner names, ws = ["FOREACH".toList, item.toList, joiner, source.toList] ∧
      isIdentifier item.toList = true ∧ joiner.map Char.toLower = "in".toList ∧
      names ≠ [] ∧ (∀ name ∈ names, isIdentifier name = true) ∧
      source.toList = ['.'].intercalate names
  | .ifThen condition =>
    ∃ rest, rest ≠ [] ∧ ws = "IF".toList :: rest ∧ condition.toList = [' '].intercalate rest

/-- No words are those of two markers. -/
theorem IsWording.unique (h : IsWording ws marker) (ho : IsWording ws other) : marker = other := by
  cases marker <;> cases other <;> simp only [IsWording] at h ho <;> grind [String.toList_inj]

/-- The four words of a `FOREACH`. -/
def IsForEach (ws : List (List Char)) (marker : Marker) : Prop :=
  ∃ item joiner source, ws = ["FOREACH".toList, item, joiner, source] ∧
    isIdentifier item = true ∧ joiner.map Char.toLower = "in".toList ∧
    isDottedName source = true ∧ marker = .forEach (String.ofList item) (String.ofList source)

/-- What is read character by character are four words with nothing around them. -/
theorem isForEach_of_readForEach? {cs : List Char} (h : readForEach? cs = some marker) :
    trimChars cs = cs ∧ IsForEach (words cs) marker := by
  unfold readForEach? at h
  split at h
  · next cs =>
    simp only [Option.bind_eq_bind, Option.bind_eq_some_iff, Prod.exists] at h
    obtain ⟨behind, hbehind, item, afterItem, hitem, joined, hjoined, h⟩ := h
    split at h
    · next i n afterJoiner =>
      simp only [Option.bind_eq_some_iff, Option.ite_none_right_eq_some, Option.some.injEq] at h
      obtain ⟨source, hsource, ⟨hi, hn, hs⟩, rfl⟩ := h
      obtain ⟨rfl, hid, -⟩ := identifierAtFront?_eq_some_iff.1 hitem
      have hsw := isWord_of_isDottedName hs
      have hjw : IsWord [i, n] := isWord_of_isIdentifier (by
        rw [← isIdentifier_map_toLower, List.map_cons, List.map_cons, hi, hn]
        decide)
      -- From the last word to the first: each is the next one behind blanks.
      obtain ⟨hws, hbs⟩ := words_of_afterBlanks? ((List.append_nil source).symm ▸ hsource) hsw
        (by simp)
      obtain ⟨hwj, hbj⟩ := words_of_afterBlanks? (w := [i, n]) hjoined hjw hbs
      obtain ⟨hwi, hbi⟩ := words_of_afterBlanks? hbehind (isWord_of_isIdentifier hid) hbj
      have hend : source <:+ "FOREACH".toList ++ cs := by
        have hjoiner := (suffix_of_afterBlanks? hsource).trans (List.suffix_append [i, n] _)
        have hitem := (hjoiner.trans (suffix_of_afterBlanks? hjoined)).trans
          (List.suffix_append item _)
        exact (hitem.trans (suffix_of_afterBlanks? hbehind)).trans (List.suffix_append ..)
      refine ⟨trimChars_eq_self_iff.2 ⟨by simp [isBlank], hsw.not_isBlank_getLast? hend⟩,
        item, [i, n], source, ?_, hid, by simp [hi, hn], hs, rfl⟩
      exact (words_append (w := "FOREACH".toList) (by decide) hbi).trans
        (by rw [hwi, hwj, hws]; rfl)
    · cases h
  · cases h

/-- The four words are read, whatever blanks stand between them. -/
theorem readForEach?_of_isForEach {cs : List Char} (htrim : trimChars cs = cs)
    (h : IsForEach (words cs) marker) : readForEach? cs = some marker := by
  obtain ⟨item, joiner, source, hwords, hi, hj, hs, rfl⟩ := h
  obtain ⟨blanks, behind, rfl, hblanks, -, hb, hw⟩ := exists_of_words_eq_cons hwords
  obtain rfl := eq_nil_of_trimChars_blank_append htrim hblanks
  obtain ⟨afterItem, hbehind, -, hsi, hbi, hwi⟩ := exists_afterBlanks?_of_words_eq_cons hw hb
  obtain ⟨afterJoiner, hjoined, -, hsj, hbj, hwj⟩ := exists_afterBlanks?_of_words_eq_cons hwi hbi
  obtain ⟨rest, hsource, -, hsr, -, hwr⟩ := exists_afterBlanks?_of_words_eq_cons hwj hbj
  obtain rfl := eq_nil_of_trimChars_of_words htrim
    (((hsr.trans hsj).trans hsi).trans (List.suffix_append ..)) hwr
  obtain ⟨i, n, rfl⟩ : ∃ i n, joiner = [i, n] := by
    have hlength := congrArg List.length hj
    rw [List.length_map] at hlength
    exact List.length_eq_two.1 hlength
  have hitem : identifierAtFront? (item ++ afterItem) = some (item, afterItem) := by
    refine identifierAtFront?_eq_some_iff.2 ⟨rfl, hi, fun c hc ↦ ?_⟩
    rw [← Bool.not_eq_true]
    intro hpart
    exact absurd (hbi c hc) (by simp [isBlank_of_isIdentifierPart hpart])
  have hin : i.toLower = 'i' ∧ n.toLower = 'n' := by simpa using hj
  rw [List.append_nil] at hsource
  rw [List.cons_append, List.singleton_append] at hjoined
  change readForEach? ('F' :: 'O' :: 'R' :: 'E' :: 'A' :: 'C' :: 'H' :: behind) = _
  simp [readForEach?, hbehind, hitem, hjoined, hsource, hin, hs]

/-- Reading a `FOREACH` character by character is reading its words. -/
theorem readForEach?_eq_some_iff {cs : List Char} :
    readForEach? cs = some marker ↔ trimChars cs = cs ∧ IsForEach (words cs) marker :=
  ⟨isForEach_of_readForEach?, fun ⟨htrim, h⟩ ↦ readForEach?_of_isForEach htrim h⟩

theorem readForEach?_spaced_iff (h : ∀ w ∈ ws, IsWord w) :
    readForEach? ([' '].intercalate ws) = some marker ↔
      ∃ item source, marker = .forEach item source ∧ IsWording ws (.forEach item source) := by
  rw [readForEach?_eq_some_iff, words_spaced h, trimChars_spaced h]
  constructor
  · rintro ⟨-, item, joiner, source, rfl, hi, hj, hs, rfl⟩
    obtain ⟨names, hn⟩ := isDottedName_iff.1 hs
    exact ⟨_, _, rfl, joiner, names, by simp, by simpa using hi, hj, by simpa using hn⟩
  · rintro ⟨item, source, rfl, joiner, names, rfl, hi, hj, hn⟩
    exact ⟨rfl, item.toList, joiner, source.toList, rfl, hi, hj, isDottedName_iff.2 ⟨names, hn⟩,
      by simp⟩

theorem readIf?_spaced (h : ∀ w ∈ ws, IsWord w) (hne : ws ≠ []) :
    readIf? ([' '].intercalate ("IF".toList :: ws)) =
      some (.ifThen (String.ofList ([' '].intercalate ws))) := by
  have hline : '\n' ∉ [' '].intercalate ws := fun hn ↦
    absurd (eq_space_of_mem_spaced h (by decide) hn) (by decide)
  have hend := trimEnd_spaced h
  obtain ⟨w, ws, rfl⟩ := List.exists_cons_of_ne_nil hne
  obtain ⟨c, cs, hx, hc⟩ := exists_spaced_cons (h w List.mem_cons_self) ws
  rw [List.intercalate_cons_cons]
  rw [hx] at hline hend ⊢
  change readIf? ('I' :: 'F' :: ' ' :: c :: cs) = _
  have hspace : isBlank ' ' = true := by decide
  simp [readIf?, hspace, hc, hline, hend]

/-- The word `IF` alone says nothing, and a longer word that begins with it is another word. -/
theorem readIf?_append_of_ne {rest : List Char} (hw : IsWord w)
    (hr : ∀ c ∈ rest.head?, isBlank c = true) (hne : w ≠ "IF".toList) :
    readIf? (w ++ rest) = none := by
  unfold readIf?
  split
  · next cs heq =>
    rcases w with _ | ⟨c, _ | ⟨d, _ | ⟨e, w⟩⟩⟩
    · exact absurd rfl hw.ne_nil
    · simp only [List.cons_append, List.nil_append, List.cons.injEq] at heq
      obtain ⟨-, rfl⟩ := heq
      exact absurd (hr 'F' rfl) (by decide)
    · simp only [List.cons_append, List.cons.injEq] at heq
      obtain ⟨rfl, rfl, -⟩ := heq
      exact absurd rfl hne
    · simp only [List.cons_append, List.cons.injEq] at heq
      obtain ⟨-, -, rfl⟩ := heq
      have he : isBlank e = false := hw.not_isBlank e (by simp)
      simp [he]
  · rfl

theorem readIf?_spaced_iff (h : ∀ w ∈ ws, IsWord w) :
    readIf? ([' '].intercalate ws) = some marker ↔
      ∃ condition, marker = .ifThen condition ∧ IsWording ws (.ifThen condition) := by
  constructor
  · intro hr
    cases ws with
    | nil => simp [readIf?] at hr
    | cons w ws =>
      obtain ⟨hw, hws⟩ := List.forall_mem_cons.1 h
      by_cases hif : w = "IF".toList
      · subst hif
        by_cases hne : ws = []
        · subst hne
          simp [readIf?] at hr
        · rw [readIf?_spaced hws hne] at hr
          exact ⟨_, (Option.some.inj hr).symm, ws, hne, rfl, String.toList_ofList⟩
      · obtain ⟨rest, he, hrest⟩ := exists_spaced_eq_append w ws
        rw [he, readIf?_append_of_ne hw hrest hif] at hr
        simp at hr
  · rintro ⟨condition, rfl, rest, hne, rfl, hc⟩
    rw [readIf?_spaced (List.forall_mem_cons.1 h).2 hne, ← hc, String.ofList_toList]

theorem read?_spaced_iff (h : ∀ w ∈ ws, IsWord w) :
    read? (String.ofList ([' '].intercalate ws)) = some marker ↔ IsWording ws marker := by
  have hone : ∀ s : String, IsWord s.toList →
      (String.ofList ([' '].intercalate ws) = s ↔ ws = [s.toList]) := fun s hs ↦ by
    rw [← String.toList_inj, String.toList_ofList, spaced_eq_iff h hs]
  have hend := hone "ENDIF" (by decide)
  have hendEach := hone "ENDFOREACH" (by decide)
  simp only [read?, hend, hendEach, String.toList_ofList]
  constructor
  · intro hr
    split at hr
    · next he => exact Option.some.inj hr ▸ he
    · split at hr
      · next he => exact Option.some.inj hr ▸ he
      · rcases Option.or_eq_some_iff.1 hr with hr | ⟨-, hr⟩
        · obtain ⟨item, source, rfl, hs⟩ := (readForEach?_spaced_iff h).1 hr
          exact hs
        · obtain ⟨condition, rfl, hs⟩ := (readIf?_spaced_iff h).1 hr
          exact hs
  · intro hs
    split
    · next he =>
      have hw : IsWording ws .endIf := he
      rw [hw.unique hs]
    · split
      · next he =>
        have hw : IsWording ws .endForEach := he
        rw [hw.unique hs]
      · cases marker with
        | endIf => contradiction
        | endForEach => contradiction
        | forEach item source =>
          exact Option.or_eq_some_iff.2 (.inl ((readForEach?_spaced_iff h).2 ⟨_, _, rfl, hs⟩))
        | ifThen condition =>
          have hnone : readForEach? ([' '].intercalate ws) = none := by
            refine Option.eq_none_iff_forall_ne_some.2 fun marker hr ↦ ?_
            obtain ⟨item, source, rfl, ho⟩ := (readForEach?_spaced_iff h).1 hr
            exact absurd (hs.unique ho) (by simp)
          rw [hnone]
          exact (readIf?_spaced_iff h).2 ⟨_, rfl, hs⟩

/-- A paragraph has one list of words. It is the marker whose words these are, and none if they are
those of no marker; any other paragraph of the same words is the same marker. -/
theorem ofBlock?_eq_some_iff_isWording (block : Block) :
    ∃ ws, (∀ vs, Runs block.chars vs ↔ vs = ws) ∧
      (∀ marker, ofBlock? block = some marker ↔ IsWording ws marker) ∧
      (ofBlock? block = none ↔ ∀ marker, ¬IsWording ws marker) ∧
      ∀ other : Block, Runs other.chars ws → ofBlock? other = ofBlock? block := by
  have hwords (block : Block) (marker : Marker) :
      ofBlock? block = some marker ↔ IsWording (words block.chars) marker :=
    read?_spaced_iff (runs_words block.chars).isWord
  refine ⟨words block.chars, fun vs ↦ runs_iff, hwords block, ?_, fun other hr ↦ ?_⟩
  · simp only [Option.eq_none_iff_forall_ne_some, ne_eq, hwords]
  · refine Option.ext fun marker ↦ ?_
    rw [hwords, hwords, hr.words_eq]

/-- A marker that begins in one leaf, ends in another and is indented. -/
example : ofBlock? ⟨[.plain "  FOR", .plain "EACH  item\tin ", .plain "Loan.Items "], .null⟩ =
    some (.forEach "item" "Loan.Items") := by
  decide

end LoanClosing.Marker
