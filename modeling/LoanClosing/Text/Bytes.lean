/-!
# Places in a text by bytes

How many bytes a text takes in UTF-8, the part of it between two bytes, and edits at a byte. An edit
never cuts a character: at a byte inside of one it has no result.
-/

namespace LoanClosing.Text

/-- The bytes that a text takes in UTF-8. -/
def byteCount (cs : List Char) : Nat := (String.ofList cs).utf8ByteSize

/-- The characters that begin at a byte from `first` up to `last`; `place` is where the first of
them begins. -/
def bytesFrom (place first last : Nat) : List Char → List Char
  | [] => []
  | c :: cs =>
    let rest := bytesFrom (place + c.utf8Size) first last cs
    if first ≤ place && place < last then c :: rest else rest

/-- The part of a text from one byte up to another. -/
def byteSlice (cs : List Char) (first last : Nat) : List Char := bytesFrom 0 first last cs

/-- The parts of a text in front of a byte and from it on. There are none where a character runs
over that place, or where the text ends before it. -/
def splitAtByte? : List Char → Nat → Option (List Char × List Char)
  | cs, 0 => some ([], cs)
  | [], _ + 1 => none
  | c :: cs, n + 1 =>
    if c.utf8Size ≤ n + 1 then
      (splitAtByte? cs (n + 1 - c.utf8Size)).map fun (before, rest) ↦ (c :: before, rest)
    else none

/-- A text with another one in place of what is between two bytes. -/
def replaceBytes? (first last : Nat) (piece cs : List Char) : Option (List Char) := do
  let (before, _) ← splitAtByte? cs first
  let (_, rest) ← splitAtByte? cs last
  if first ≤ last then some (before ++ piece ++ rest) else none

/-- A text cut off at a byte; one that ends before it stays. -/
def truncateAt? (last : Nat) (cs : List Char) : Option (List Char) :=
  if byteCount cs ≤ last then some cs else (splitAtByte? cs last).map Prod.fst

@[simp] theorem byteCount_nil : byteCount [] = 0 := rfl

/-- The bytes of a text add up. -/
@[simp] theorem byteCount_append (first rest : List Char) :
    byteCount (first ++ rest) = byteCount first + byteCount rest := by
  simp [byteCount]

/-- The bytes of a character and of what is behind it. -/
theorem byteCount_cons (c : Char) (cs : List Char) :
    byteCount (c :: cs) = c.utf8Size + byteCount cs := by
  simp [byteCount]

/-- A text is cut where a part of it ends. -/
@[simp] theorem splitAtByte?_append (before rest : List Char) :
    splitAtByte? (before ++ rest) (byteCount before) = some (before, rest) := by
  induction before with
  | nil => rw [List.nil_append, byteCount_nil, splitAtByte?]
  | cons c before ih =>
    obtain ⟨n, hn⟩ : ∃ n, byteCount (c :: before) = n + 1 :=
      Nat.exists_eq_add_one.mpr (by rw [byteCount_cons]; have := c.utf8Size_pos; omega)
    have hs : c.utf8Size ≤ n + 1 := by
      rw [← hn, byteCount_cons]
      omega
    have hr : n + 1 - c.utf8Size = byteCount before := by
      rw [← hn, byteCount_cons]
      omega
    rw [hn, List.cons_append, splitAtByte?, if_pos hs, hr, ih]
    rfl

/-- A text between two others is replaced by the bytes where they end. -/
theorem replaceBytes?_append (before old rest piece : List Char) :
    replaceBytes? (byteCount before) (byteCount before + byteCount old) piece
      (before ++ old ++ rest) = some (before ++ piece ++ rest) := by
  have hf : splitAtByte? (before ++ old ++ rest) (byteCount before) =
      some (before, old ++ rest) := by
    rw [List.append_assoc, splitAtByte?_append]
  have hl : splitAtByte? (before ++ old ++ rest) (byteCount before + byteCount old) =
      some (before ++ old, rest) := by
    rw [← byteCount_append, splitAtByte?_append]
  rw [replaceBytes?, hf, hl]
  simp

/-- A text is cut off where a part of it ends. -/
@[simp] theorem truncateAt?_append (before rest : List Char) :
    truncateAt? (byteCount before) (before ++ rest) = some before := by
  rw [truncateAt?, splitAtByte?_append]
  split
  · next h =>
    have hr : byteCount rest = 0 := by
      rw [byteCount_append] at h
      omega
    cases rest with
    | nil => rw [List.append_nil]
    | cons c rest =>
      have := c.utf8Size_pos
      rw [byteCount_cons] at hr
      omega
  · rfl

end LoanClosing.Text
