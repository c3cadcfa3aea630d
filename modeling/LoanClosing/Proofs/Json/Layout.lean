import LoanClosing.Proofs.Json.Number

/-!
# Written values as tokens

Both layouts of a value spell the same tokens, which do not depend on the blanks between them.
-/

namespace LoanClosing.Json

open Token

/-! ### The tokens of a value -/

mutual

/-- The numbers in a value. -/
def numbers : Json → List Number
  | .null | .bool _ | .text _ => []
  | .number n => [n]
  | .array items => numbersOfItems items
  | .object members => numbersOfMembers members

/-- The numbers in items. -/
def numbersOfItems : List Json → List Number
  | [] => []
  | item :: items => numbers item ++ numbersOfItems items

/-- The numbers in members. -/
def numbersOfMembers : List (String × Json) → List Number
  | [] => []
  | (_, value) :: members => numbers value ++ numbersOfMembers members

end

mutual

/-- The tokens of a value. -/
def tokens : Json → List Token
  | .null => [.null]
  | .bool b => [.bool b]
  | .number n => [.number (.ok n)]
  | .text s => [.text (.ok s)]
  | .array [] => [.openArray, .closeArray]
  | .array (item :: items) => .openArray :: (tokens item ++ moreItems items ++ [.closeArray])
  | .object [] => [.openObject, .closeObject]
  | .object ((key, value) :: members) =>
    .openObject :: .text (.ok key) :: .colon ::
      (tokens value ++ moreMembers members ++ [.closeObject])

/-- The tokens of the items after the first one. -/
def moreItems : List Json → List Token
  | [] => []
  | item :: items => .comma :: (tokens item ++ moreItems items)

/-- The tokens of the members after the first one. -/
def moreMembers : List (String × Json) → List Token
  | [] => []
  | (key, value) :: members =>
    .comma :: .text (.ok key) :: .colon :: (tokens value ++ moreMembers members)

end

/-! ### Spelling -/

/-- Whether characters are scanned as the given tokens in front of whatever cannot go on with a
number. -/
def Spells (cs : List Char) (ts : List Token) : Prop :=
  ∀ rest, Ends rest → scan (cs.map some ++ rest) = ts ++ scan rest

/-- Whether no number can go on with characters. -/
def Stops (cs : List Char) : Prop := ∀ rest, Ends rest → Ends (cs.map some ++ rest)

theorem stops_nil : Stops [] := fun _ h ↦ h

theorem stops_cons {c : Char} (h : c.isDigit = false ∧ c ≠ '.' ∧ c ≠ 'e' ∧ c ≠ 'E')
    (cs : List Char) : Stops (c :: cs) :=
  fun _ _ ↦ ends_cons h _

namespace Spells

variable {a b cs : List Char} {s t ts : List Token}

theorem nil : Spells [] [] := fun _ _ ↦ rfl

theorem append (ha : Spells a s) (hb : Spells b t) (hs : Stops b) : Spells (a ++ b) (s ++ t) := by
  intro rest hr
  rw [List.map_append, List.append_assoc, ha _ (hs rest hr), hb rest hr, List.append_assoc]

/-- A sign in front. -/
theorem sign {c : Char} {token : Token}
    (hc : ∀ rest, scan (some c :: rest) = token :: scan rest) (h : Spells cs ts) :
    Spells (c :: cs) (token :: ts) := by
  intro rest hr
  rw [List.map_cons, List.cons_append, hc, h rest hr, List.cons_append]

/-- A blank in front. -/
theorem blank {c : Char} (hc : isBlank c = true) (h : Spells cs ts) : Spells (c :: cs) ts := by
  intro rest hr
  rw [List.map_cons, List.cons_append, scan_blank hc, h rest hr]

/-- A text in front. -/
theorem text (key : String) (h : Spells cs ts) :
    Spells (quotedChars key ++ cs) (.text (.ok key) :: ts) := by
  intro rest hr
  rw [List.map_append, List.append_assoc, scan_quotedChars, h rest hr, List.cons_append]

/-- The start of a line in front. -/
theorem newline (level : Nat) (h : Spells cs ts) : Spells (newline level ++ cs) ts := by
  refine blank rfl ?_
  induction 2 * level with
  | zero => exact h
  | succ n ih => exact blank rfl ih

end Spells

theorem spells_number {n : Number} (h : n.Faithful) : Spells n.chars [.number (.ok n)] :=
  fun _ hr ↦ h.scan_append hr

theorem spells_text (s : String) : Spells (quotedChars s) [.text (.ok s)] :=
  fun rest _ ↦ scan_quotedChars s rest

/-! ### The compact layout -/

theorem stops_compactItems (items : List Json) : Stops (compactItems items) := by
  cases items with
  | nil => exact stops_nil
  | cons item items => exact stops_cons (by decide) _

theorem stops_compactMembers (members : List (String × Json)) : Stops (compactMembers members) := by
  cases members with
  | nil => exact stops_nil
  | cons entry members => exact stops_cons (by decide) _

mutual

/-- The compact layout spells the tokens of a value. -/
theorem spells_compact :
    (j : Json) → (∀ n ∈ j.numbers, n.Faithful) → Spells (compactChars j) (tokens j)
  | .null, _ => fun rest _ ↦ scan_null rest
  | .bool true, _ => fun rest _ ↦ scan_true rest
  | .bool false, _ => fun rest _ ↦ scan_false rest
  | .number n, h => spells_number (h n List.mem_cons_self)
  | .text s, _ => spells_text s
  | .array [], _ => .sign scan_openArray (.sign scan_closeArray .nil)
  | .array (item :: items), h => by
    have ⟨hi, his⟩ := List.forall_mem_append.1 h
    exact .sign scan_openArray (((spells_compact item hi).append (spells_compactItems items his)
      (stops_compactItems items)).append (.sign scan_closeArray .nil) (stops_cons (by decide) _))
  | .object [], _ => .sign scan_openObject (.sign scan_closeObject .nil)
  | .object ((key, value) :: members), h => by
    have ⟨hv, hms⟩ := List.forall_mem_append.1 h
    exact .sign scan_openObject (.text key (.sign scan_colon
      (((spells_compact value hv).append (spells_compactMembers members hms)
        (stops_compactMembers members)).append (.sign scan_closeObject .nil)
          (stops_cons (by decide) _))))

theorem spells_compactItems :
    (items : List Json) → (∀ n ∈ numbersOfItems items, n.Faithful) →
      Spells (compactItems items) (moreItems items)
  | [], _ => .nil
  | item :: items, h => by
    have ⟨hi, his⟩ := List.forall_mem_append.1 h
    exact .sign scan_comma ((spells_compact item hi).append (spells_compactItems items his)
      (stops_compactItems items))

theorem spells_compactMembers :
    (members : List (String × Json)) → (∀ n ∈ numbersOfMembers members, n.Faithful) →
      Spells (compactMembers members) (moreMembers members)
  | [], _ => .nil
  | (key, value) :: members, h => by
    have ⟨hv, hms⟩ := List.forall_mem_append.1 h
    exact .sign scan_comma (.text key (.sign scan_colon ((spells_compact value hv).append
      (spells_compactMembers members hms) (stops_compactMembers members))))

end

/-! ### The pretty layout -/

theorem stops_newline (level : Nat) (cs : List Char) : Stops (newline level ++ cs) :=
  stops_cons (by decide) _

theorem stops_prettyItems (level : Nat) (items : List Json) : Stops (prettyItems level items) := by
  cases items with
  | nil => exact stops_nil
  | cons item items => exact stops_cons (by decide) _

theorem stops_prettyMembers (level : Nat) (members : List (String × Json)) :
    Stops (prettyMembers level members) := by
  cases members with
  | nil => exact stops_nil
  | cons entry members => exact stops_cons (by decide) _

mutual

/-- The pretty layout spells the tokens of a value. -/
theorem spells_pretty (level : Nat) :
    (j : Json) → (∀ n ∈ j.numbers, n.Faithful) → Spells (prettyChars level j) (tokens j)
  | .null, _ => fun rest _ ↦ scan_null rest
  | .bool true, _ => fun rest _ ↦ scan_true rest
  | .bool false, _ => fun rest _ ↦ scan_false rest
  | .number n, h => spells_number (h n List.mem_cons_self)
  | .text s, _ => spells_text s
  | .array [], _ => .sign scan_openArray (.sign scan_closeArray .nil)
  | .array (item :: items), h => by
    have ⟨hi, his⟩ := List.forall_mem_append.1 h
    have hitems := (spells_pretty (level + 1) item hi).append
      (spells_prettyItems (level + 1) items his) (stops_prettyItems (level + 1) items)
    have hclose : Spells (newline level ++ [']']) [.closeArray] :=
      .newline level (.sign scan_closeArray .nil)
    have hall := hitems.append hclose (stops_newline level _)
    simp only [prettyChars, tokens, List.append_assoc] at hall ⊢
    exact .sign scan_openArray (.newline (level + 1) hall)
  | .object [], _ => .sign scan_openObject (.sign scan_closeObject .nil)
  | .object ((key, value) :: members), h => by
    have ⟨hv, hms⟩ := List.forall_mem_append.1 h
    have hmembers := (spells_pretty (level + 1) value hv).append
      (spells_prettyMembers (level + 1) members hms) (stops_prettyMembers (level + 1) members)
    have hclose : Spells (newline level ++ ['\x7d']) [.closeObject] :=
      .newline level (.sign scan_closeObject .nil)
    have hall := hmembers.append hclose (stops_newline level _)
    simp only [prettyChars, tokens, List.append_assoc] at hall ⊢
    exact .sign scan_openObject (.newline (level + 1) (.text key (.sign scan_colon
      (.blank rfl hall))))

theorem spells_prettyItems (level : Nat) :
    (items : List Json) → (∀ n ∈ numbersOfItems items, n.Faithful) →
      Spells (prettyItems level items) (moreItems items)
  | [], _ => .nil
  | item :: items, h => by
    have ⟨hi, his⟩ := List.forall_mem_append.1 h
    have hitems := (spells_pretty level item hi).append (spells_prettyItems level items his)
      (stops_prettyItems level items)
    simp only [prettyItems, moreItems, List.append_assoc] at hitems ⊢
    exact .sign scan_comma (.newline level hitems)

theorem spells_prettyMembers (level : Nat) :
    (members : List (String × Json)) → (∀ n ∈ numbersOfMembers members, n.Faithful) →
      Spells (prettyMembers level members) (moreMembers members)
  | [], _ => .nil
  | (key, value) :: members, h => by
    have ⟨hv, hms⟩ := List.forall_mem_append.1 h
    have hmembers := (spells_pretty level value hv).append (spells_prettyMembers level members hms)
      (stops_prettyMembers level members)
    simp only [prettyMembers, moreMembers, List.append_assoc] at hmembers ⊢
    exact .sign scan_comma (.newline level (.text key (.sign scan_colon (.blank rfl hmembers))))

end

/-- Both layouts of a value are scanned as its tokens. -/
theorem scan_compact {j : Json} (h : ∀ n ∈ j.numbers, n.Faithful) :
    scan (j.compact.toList.map some) = tokens j := by
  have hs := spells_compact j h [] ends_nil
  simpa [compact, scan] using hs

theorem scan_pretty {j : Json} (h : ∀ n ∈ j.numbers, n.Faithful) :
    scan (j.pretty.toList.map some) = tokens j := by
  have hs := spells_pretty 0 j h [] ends_nil
  simpa [pretty, scan] using hs

end LoanClosing.Json
