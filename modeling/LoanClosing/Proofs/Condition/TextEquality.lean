import LoanClosing.Proofs.Condition.Scan
import LoanClosing.Proofs.Model.Texts
import LoanClosing.Proofs.Text.Words

/-!
# A path that equals a text

A text in a condition is compared as it is after its typographic quotes have been folded, also those
inside of it. So a path that leads to a text equals it when it is written out, and no other text, as
long as there is no typographic single quote in it; one that holds such a quote equals no text that
can be written.
-/

namespace LoanClosing

/-! ## Paths -/

namespace Text

/-- A text without blanks has none at its ends. -/
theorem trimChars_of_not_isBlank {cs : List Char} (h : ∀ c ∈ cs, isBlank c = false) :
    trimChars cs = cs := by
  have hdrop : ∀ {cs : List Char}, (∀ c ∈ cs, isBlank c = false) → cs.dropWhile isBlank = cs := by
    intro cs h
    cases cs with
    | nil => rfl
    | cons c cs => exact List.dropWhile_cons_of_neg (by simp [h c List.mem_cons_self])
  rw [trimChars, trimStart, hdrop h, trimEnd, hdrop (by simpa using h), List.reverse_reverse]

/-- An identifier has no blanks at its ends. -/
theorem trim_of_isIdentifier {name : String} (h : isIdentifier name.toList = true) :
    trim name = name := by
  obtain ⟨-, -, -, -, hp⟩ := Condition.exists_of_isIdentifier h
  rw [trim, trimChars_of_not_isBlank fun c hc ↦ isBlank_of_isIdentifierPart (hp c hc),
    String.ofList_toList]

end Text

namespace Condition

/-- The pieces between the points of a text make up the text. -/
theorem exists_dotted (cs : List Char) :
    ∃ head more, Text.splitAt '.' cs = (head :: more).map String.toList ∧
      dotted head more = cs := by
  induction cs with
  | nil => exact ⟨"", [], rfl, rfl⟩
  | cons c cs ih =>
    obtain ⟨head, more, hs, rfl⟩ := ih
    by_cases hc : c = '.'
    · exact ⟨"", head :: more, by simp [Text.splitAt, hs, hc], by simp [dotted, hc]⟩
    · refine ⟨String.ofList (c :: head.toList), more, by simp [Text.splitAt, hs, hc], ?_⟩
      cases more <;> simp [dotted]

/-- A dotted name is identifiers with points between them, which are its segments. -/
theorem exists_of_isDottedName {path : String} (h : Text.isDottedName path.toList = true) :
    ∃ head more, path.toList = dotted head more ∧
      (∀ segment ∈ head :: more, Text.isIdentifier segment.toList = true) ∧
      Scope.segments path = head :: more := by
  obtain ⟨head, more, hs, hd⟩ := exists_dotted path.toList
  have hi : ∀ segment ∈ head :: more, Text.isIdentifier segment.toList = true := by
    rw [Text.isDottedName, hs, List.all_map, List.all_eq_true] at h
    exact h
  refine ⟨head, more, hd.symm, hi, ?_⟩
  rw [Scope.segments, hs, List.map_map]
  have hmap : ∀ segment ∈ head :: more, Text.trim segment = segment :=
    fun segment hm ↦ Text.trim_of_isIdentifier (hi segment hm)
  exact (List.map_congr_left hmap).trans (List.map_id' _)

end Condition

/-- A path that leads somewhere begins with a name in scope. -/
theorem Scope.head_mem_names {scope : Scope} {head : String} {more : List String} {value : Value}
    (h : scope.resolveSegments (head :: more) = .found value) : head ∈ scope.names := by
  rw [resolveSegments, binding?] at h
  split at h
  · cases h
  · next start hb =>
    have hm := Table.mem_keys_of_find? hb
    rwa [Table.keys, List.map_append] at hm

namespace Condition

/-- A text with its typographic quotes folded. -/
def foldQuotes (text : String) : String := String.ofList (text.toList.map foldQuote)

/-- The condition that a path equals a text, which stands between double quotes; there may be gaps
around the equals sign. -/
def equality (path : String) (before after : List Char) (text : String) : String :=
  String.ofList (path.toList ++ before ++ '=' :: after ++ '\x22' :: text.toList ++ ['\x22'])

section

variable {scope : Scope} {head : String} {more : List String} {before after : List Char}
  {t u : String}

/-- Folding leaves no typographic quote. -/
theorem foldQuote_notMem (c : Char) : foldQuote c ∉ typographicQuotes.map Prod.snd := by
  by_cases hc : c ∈ typographicQuotes.map Prod.snd
  · obtain ⟨p, hp, rfl⟩ := List.mem_map.1 hc
    have hfolded : ∀ p ∈ typographicQuotes, isQuote (foldQuote p.2) = true := by decide
    have hnone : ∀ p ∈ typographicQuotes, isQuote p.2 = false := by decide
    intro hm
    obtain ⟨q, hq, he⟩ := List.mem_map.1 hm
    exact absurd ((hnone q hq).symm.trans (he ▸ hfolded p hp)) (by decide)
  · rwa [foldQuote_of_notMem hc]

/-- Folding changes nothing outside of the text. -/
theorem map_foldQuote_equality
    (hi : ∀ segment ∈ head :: more, Text.isIdentifier segment.toList = true)
    (hb : before.all isGap = true) (ha : after.all isGap = true) :
    (dotted head more ++ before ++ '=' :: after ++ '\x22' :: u.toList ++ ['\x22']).map foldQuote =
      [] ++ ([] ++ dotted head more) ++ (before ++ ['='] ++
        (after ++ ('\x22' :: u.toList.map foldQuote ++ ['\x22']) ++ [])) := by
  have hpath := map_foldQuote_of_isOrdinary (isOrdinary_of_mem_dotted hi)
  have hbefore := map_foldQuote_of_isOrdinary (isOrdinary_of_mem_gap hb)
  have hafter := map_foldQuote_of_isOrdinary (isOrdinary_of_mem_gap ha)
  have hequals : foldQuote '=' = '=' := by decide
  have hdouble : foldQuote '\x22' = '\x22' := by decide
  simp [hpath, hbefore, hafter, hequals, hdouble]

/-- The condition spells its three tokens once its quotes are folded, with the quotes inside of the
text folded as well. -/
theorem spells_equality (hm : head ∈ scope.names)
    (hi : ∀ segment ∈ head :: more, Text.isIdentifier segment.toList = true)
    (hb : before.all isGap = true) (ha : after.all isGap = true)
    (hu : ∀ c ∈ u.toList, foldQuote c ≠ '\x22') :
    Spells .straight scope.names
      [.path (head :: more), .compare .equal, .literal (.text (foldQuotes u))]
      ((dotted head more ++ before ++ '=' :: after ++ '\x22' :: u.toList ++ ['\x22']).map
        foldQuote) := by
  have hquote : ('\x22', '\x22') ∈ Style.straight.quotes := by decide
  have hbody : '\x22' ∉ u.toList.map foldQuote := by
    intro hmem
    obtain ⟨c, hc, he⟩ := List.mem_map.1 hmem
    exact hu c hc he
  have hfolded : ∀ p ∈ typographicQuotes, p.2 ∉ u.toList.map foldQuote := by
    intro p hp hmem
    obtain ⟨c, -, he⟩ := List.mem_map.1 hmem
    exact foldQuote_notMem c (he ▸ List.mem_map_of_mem hp)
  have hsign : (before ++ ['='] ++ (after ++ ('\x22' :: u.toList.map foldQuote ++ ['\x22']) ++
      [])).head?.any Text.isIdentifierPart = false := by
    cases before with
    | nil => rfl
    | cons c before =>
      rw [List.all_cons, Bool.and_eq_true] at hb
      exact isIdentifierPart_of_isGap hb.1
  rw [map_foldQuote_equality hi hb ha]
  refine .cons [] _ _ rfl (.path hm hi) (.of_head? hsign) ?_
  refine .cons before _ _ hb (.sign (by decide)) (.of_getLast? rfl) ?_
  exact .cons after _ _ ha (.text hquote hquote hbody hfolded) (.of_head? rfl) (.nil [] rfl)

/-- A condition is read off its spelling with plain quotes. -/
theorem parse?_of_straight {names : List String} {e : Expr} {tokens : List Token} {cs : List Char}
    (h : Spells .straight names tokens (cs.map foldQuote)) (hw : Writes .disjunction e tokens)
    (hn : ∀ name ∈ names, ¬ IsReserved name) :
    parse? (qualify names (normalize cs)) = some e := by
  have ht := hw.takesTurns_self
  have hmarked : Spells .marked names tokens (qualify names (normalize cs)) :=
    (h.uniform ht nofun).marked hn ht nofun
  exact parse?_eq_some_iff.2 ⟨tokens, hmarked.scan?_eq ht, hw⟩

/-- What a path leads to is compared with the text as it is after folding. -/
theorem evaluate_equality (hn : ∀ name ∈ scope.names, ¬ IsReserved name)
    (hi : ∀ segment ∈ head :: more, Text.isIdentifier segment.toList = true)
    (hr : scope.resolveSegments (head :: more) = .found (.text t))
    (hb : before.all isGap = true) (ha : after.all isGap = true)
    (hu : ∀ c ∈ u.toList, foldQuote c ≠ '\x22') :
    evaluate scope (String.ofList
      (dotted head more ++ before ++ '=' :: after ++ '\x22' :: u.toList ++ ['\x22'])) =
      .ok (decide (t = foldQuotes u)) := by
  have hspells := spells_equality (scope.head_mem_names hr) hi hb ha hu
  have hwrites : Writes .disjunction _ _ := .conjunction (.negation (.comparison
    (.compare .equal (.path (head :: more)) (.literal (.text (foldQuotes u))))))
  have hequals : equals (.text t) (.text (foldQuotes u)) = decide (t = foldQuotes u) := rfl
  rw [evaluate, strictSpelling, String.toList_ofList, parse?_of_straight hspells hwrites hn,
    ← hequals]
  simp only [Expr.eval, hr]
  rfl

end

/-- What is folded stays when it is folded again. -/
theorem foldQuote_of_mem_foldQuotes {u : String} {c : Char} (h : c ∈ (foldQuotes u).toList) :
    foldQuote c = c := by
  rw [foldQuotes, String.toList_ofList] at h
  obtain ⟨d, -, rfl⟩ := List.mem_map.1 h
  exact foldQuote_of_notMem (foldQuote_notMem d)

/-- A path that leads to a text is compared with what is written between double quotes as that is
after its typographic quotes have been folded. So as long as none is written, the path equals the
text that it leads to and no other; and a text with a typographic quote equals nothing that can be
written, not even itself. -/
theorem evaluate_textEquality {scope : Scope} {path t : String} {before after : List Char}
    (hn : ∀ name ∈ scope.names, ¬ IsReserved name)
    (hp : Text.isDottedName path.toList = true) (hr : scope.resolve path = .found (.text t))
    (hb : before.all isGap = true) (ha : after.all isGap = true) :
    (∀ u : String, (∀ c ∈ u.toList, foldQuote c ≠ '\x22') →
      evaluate scope (equality path before after u) = .ok (decide (t = foldQuotes u))) ∧
    (∀ u : String, (∀ c ∈ u.toList, foldQuote c ≠ '\x22') → (∀ c ∈ u.toList, foldQuote c = c) →
      evaluate scope (equality path before after u) = .ok (decide (t = u))) ∧
    ((∃ c ∈ t.toList, foldQuote c ≠ c) →
      ∀ u : String, (∀ c ∈ u.toList, foldQuote c ≠ '\x22') →
        evaluate scope (equality path before after u) = .ok false) := by
  obtain ⟨head, more, hd, hi, hs⟩ := exists_of_isDottedName hp
  rw [Scope.resolve, hs] at hr
  have hall : ∀ u : String, (∀ c ∈ u.toList, foldQuote c ≠ '\x22') →
      evaluate scope (equality path before after u) = .ok (decide (t = foldQuotes u)) := by
    intro u hu
    rw [equality, hd]
    exact evaluate_equality hn hi hr hb ha hu
  refine ⟨hall, fun u hu hf ↦ ?_, ?_⟩
  · rw [hall u hu, foldQuotes, map_foldQuote hf, String.ofList_toList]
  · rintro ⟨c, hc, hne⟩ u hu
    rw [hall u hu, decide_eq_false]
    rintro rfl
    exact hne (foldQuote_of_mem_foldQuotes hc)

/-- A text with signs, a name in scope and a plain single quote equals itself and nothing else. -/
theorem evaluate_textEquality_note :
    let scope := Scope.outermost "Loan" (.object [("Note", .text "Loan <> O'Neil = 1")])
    evaluate scope (equality "Loan.Note" [' '] [] "Loan <> O'Neil = 1") = .ok true ∧
      evaluate scope (equality "Loan.Note" [' '] [] "Loan != O'Neil == 1") = .ok false := by
  intro scope
  have hn : ∀ name ∈ scope.names, ¬ IsReserved name := by
    unfold IsReserved
    decide
  have hr : scope.resolve "Loan.Note" = .found (.text "Loan <> O'Neil = 1") := rfl
  have hgap : [' '].all isGap = true := rfl
  have hnone : [].all isGap = true := rfl
  obtain ⟨-, hfaithful, -⟩ := evaluate_textEquality hn (by decide) hr hgap hnone
  constructor
  · exact hfaithful "Loan <> O'Neil = 1" (by simp [foldQuote]) (by simp [foldQuote])
  · exact hfaithful "Loan != O'Neil == 1" (by simp [foldQuote]) (by simp [foldQuote])

/-- A name with a typographic apostrophe does not equal itself. -/
theorem not_faithful_apostrophe :
    ¬ ∀ (scope : Scope) (path t : String), (∀ name ∈ scope.names, ¬ IsReserved name) →
      Text.isDottedName path.toList = true → scope.resolve path = .found (.text t) →
      (∀ c ∈ t.toList, foldQuote c ≠ '\x22') →
      evaluate scope (equality path [' '] [' '] t) = .ok true ∧
        ∀ u : String, (∀ c ∈ u.toList, foldQuote c ≠ '\x22') → u ≠ t →
          evaluate scope (equality path [' '] [' '] u) = .ok false := by
  intro h
  let scope : Scope := .outermost "Loan" (.object [("Borrower", .text "O’Neil")])
  have hn : ∀ name ∈ scope.names, ¬ IsReserved name := by
    unfold IsReserved
    decide
  obtain ⟨htrue, -⟩ := h scope "Loan.Borrower" "O’Neil" hn (by decide) rfl (by simp [foldQuote])
  have hfalse : evaluate scope (equality "Loan.Borrower" [' '] [' '] "O’Neil") = .ok false := by
    have hs : Token.scan?
        (strictSpelling scope (equality "Loan.Borrower" [' '] [' '] "O’Neil")) =
        some [.path ["Loan", "Borrower"], .compare .equal, .literal (.text "O'Neil")] := by
      decide +kernel
    rw [evaluate_of_writes hs (.conjunction (.negation (.comparison
      (.compare .equal (.path ["Loan", "Borrower"]) (.literal (.text "O'Neil"))))))]
    rfl
  rw [hfalse] at htrue
  cases htrue

end Condition

end LoanClosing
