import LoanClosing.Document.Marker
import Mathlib.Data.List.Forall2
import Mathlib.Order.Bounds.Basic

/-!
# The closer of an opener

The search for the closer of an opener keeps one count: the openers of the same kind behind it that
are still to be closed. Up to the closer the count is what is opened less what is closed, so it
never falls below zero. The closer is then the first paragraph of its kind in front of which as much
is closed as is opened. Markers of the other kind and whatever stands behind the closer do not
matter.
-/

namespace LoanClosing

namespace Marker

/-- Whether a paragraph opens a part of the same kind as an opener. -/
def isOpenedLike (opener : Marker) (block : Block) : Bool :=
  (ofBlock? block).any (·.opensLike opener)

/-- Whether a paragraph closes a part of the kind that an opener opens. -/
def isClosedLike (opener : Marker) (block : Block) : Bool :=
  (ofBlock? block).any (·.closes opener)

/-- Whether a marker is one of a loop, and not of a condition. -/
def isOfLoop : Marker → Bool
  | .forEach .. | .endForEach => true
  | .ifThen _ | .endIf => false

/-- Whether a paragraph is no marker of the kind of an opener: no marker at all, or one of the other
kind. -/
def isForeign (opener : Marker) (block : Block) : Bool :=
  (ofBlock? block).all (·.isOfLoop != opener.isOfLoop)

/-- The number of parts of the kind of an opener that paragraphs open. -/
def opened (opener : Marker) (blocks : List Block) : Nat := blocks.countP opener.isOpenedLike

/-- The number of parts of the kind of an opener that paragraphs close. -/
def closed (opener : Marker) (blocks : List Block) : Nat := blocks.countP opener.isClosedLike

/-- The count of a search after more paragraphs; none once the opener itself is closed. -/
def depthAlong (opener : Marker) (depth : Nat) (blocks : List Block) : Option Nat :=
  blocks.foldlM (fun depth block ↦ depthAfter opener depth (ofBlock? block)) depth

/-- The paragraphs between two places. -/
def between (blocks : List Block) (place last : Nat) : List Block :=
  (blocks.take last).drop (place + 1)

/-- Behind a place, a paragraph closes a part of the kind of an opener, and the paragraphs between
the two close as many of them as they open. -/
structure Balances (opener : Marker) (blocks : List Block) (place last : Nat) : Prop where
  behind : place < last
  closes : blocks[last]?.any opener.isClosedLike = true
  level : opener.opened (between blocks place last) = opener.closed (between blocks place last)

variable {opener : Marker} {depth n : Nat} {block : Block} {blocks : List Block}

/-! ### One paragraph -/

theorem opened_cons (opener : Marker) (block : Block) (blocks : List Block) :
    opener.opened (block :: blocks) =
      opener.opened blocks + if opener.isOpenedLike block then 1 else 0 :=
  List.countP_cons

theorem closed_cons (opener : Marker) (block : Block) (blocks : List Block) :
    opener.closed (block :: blocks) =
      opener.closed blocks + if opener.isClosedLike block then 1 else 0 :=
  List.countP_cons

/-- No paragraph both opens and closes. -/
theorem isClosedLike_of_isOpenedLike (h : opener.isOpenedLike block = true) :
    opener.isClosedLike block = false := by
  unfold isOpenedLike at h
  unfold isClosedLike
  cases hm : ofBlock? block with
  | none => rfl
  | some marker =>
    rw [hm, Option.any_some] at h
    rw [Option.any_some]
    cases marker with
    | ifThen condition => cases opener <;> rfl
    | forEach item source => cases opener <;> rfl
    | endIf => cases opener <;> cases h
    | endForEach => cases opener <;> cases h

/-- What is no marker of the kind of an opener neither opens nor closes a part of that kind. -/
theorem not_isOpenedLike_of_isForeign (h : opener.isForeign block = true) :
    opener.isOpenedLike block = false ∧ opener.isClosedLike block = false := by
  unfold isForeign at h
  unfold isOpenedLike isClosedLike
  cases hm : ofBlock? block with
  | none => exact ⟨rfl, rfl⟩
  | some marker =>
    rw [hm, Option.all_some] at h
    rw [Option.any_some, Option.any_some]
    cases marker <;> cases opener <;> simp_all [isOfLoop, opensLike, closes]

/-- The count after one paragraph, by what the paragraph is for the kind of the opener. -/
theorem depthAfter_ofBlock? (opener : Marker) (depth : Nat) (block : Block) :
    depthAfter opener depth (ofBlock? block) =
      if opener.isOpenedLike block then some (depth + 1)
      else if opener.isClosedLike block then (if depth = 0 then none else some (depth - 1))
      else some depth := by
  unfold isOpenedLike isClosedLike
  cases ofBlock? block <;> rfl

/-- The opener is closed by a closer of its kind that is met with nothing else left to close. -/
theorem depthAfter_eq_none_iff :
    depthAfter opener depth (ofBlock? block) = none ↔
      opener.isClosedLike block = true ∧ depth = 0 := by
  rw [depthAfter_ofBlock?]
  by_cases ho : opener.isOpenedLike block = true
  · simp [ho, isClosedLike_of_isOpenedLike ho]
  · by_cases hc : opener.isClosedLike block = true
    · simp [ho, hc]
    · simp [ho, hc]

/-- One paragraph adds one to the count, takes one away that is there, or leaves it. -/
theorem depthAfter_add {next : Nat} (h : depthAfter opener depth (ofBlock? block) = some next) :
    next + opener.closed [block] = depth + opener.opened [block] := by
  rw [depthAfter_ofBlock?] at h
  rw [opened_cons, closed_cons, opened, closed, List.countP_nil, List.countP_nil]
  by_cases ho : opener.isOpenedLike block = true
  · rw [if_pos ho] at h
    rw [if_pos ho, isClosedLike_of_isOpenedLike ho, if_neg (by decide)]
    have := Option.some.inj h
    omega
  · rw [if_neg ho] at h
    rw [if_neg ho]
    by_cases hc : opener.isClosedLike block = true
    · rw [if_pos hc] at h
      rw [if_pos hc]
      by_cases hz : depth = 0
      · rw [if_pos hz] at h
        cases h
      · rw [if_neg hz] at h
        have := Option.some.inj h
        omega
    · rw [if_neg hc] at h
      rw [if_neg hc]
      have := Option.some.inj h
      omega

/-! ### Any number of paragraphs -/

theorem depthAlong_nil (opener : Marker) (depth : Nat) : depthAlong opener depth [] = some depth :=
  rfl

theorem depthAlong_cons (opener : Marker) (depth : Nat) (block : Block) (blocks : List Block) :
    depthAlong opener depth (block :: blocks) =
      (depthAfter opener depth (ofBlock? block)).bind (depthAlong opener · blocks) :=
  List.foldlM_cons

/-- Until the opener is closed, the count is what is opened less what is closed. -/
theorem depthAlong_add {next : Nat} (h : depthAlong opener depth blocks = some next) :
    next + opener.closed blocks = depth + opener.opened blocks := by
  induction blocks generalizing depth with
  | nil =>
    rw [depthAlong_nil] at h
    rw [Option.some.inj h]
    rfl
  | cons block blocks ih =>
    rw [depthAlong_cons, Option.bind_eq_some_iff] at h
    obtain ⟨inner, hi, hn⟩ := h
    have hstep := depthAfter_add hi
    have hrun := ih hn
    rw [opened_cons, closed_cons] at hstep ⊢
    simp only [opened, closed, List.countP_nil] at hstep hrun ⊢
    omega

/-- The search stops at a closer that it comes to with nothing else left to close. -/
theorem closerFrom?_eq_some_iff_depthAlong :
    closerFrom? opener depth blocks = some n ↔
      blocks[n]?.any opener.isClosedLike = true ∧
        depthAlong opener depth (blocks.take n) = some 0 := by
  induction blocks generalizing depth n with
  | nil => simp [closerFrom?]
  | cons block blocks ih =>
    rw [closerFrom?]
    cases hd : depthAfter opener depth (ofBlock? block) with
    | none =>
      obtain ⟨hc, hz⟩ := depthAfter_eq_none_iff.1 hd
      cases n with
      | zero => simp [hc, hz, depthAlong_nil]
      | succ n => simp [depthAlong_cons, hd]
    | some next =>
      cases n with
      | zero =>
        -- A closer would have stopped the search, as nothing is left to close.
        have hn : ¬(opener.isClosedLike block = true ∧ depth = 0) := by
          rw [← depthAfter_eq_none_iff, hd]
          exact Option.some_ne_none next
        simpa [depthAlong_nil] using hn
      | succ n => simp [depthAlong_cons, hd, ih]

theorem depthAlong_append (opener : Marker) (depth : Nat) (blocks more : List Block) :
    depthAlong opener depth (blocks ++ more) =
      (depthAlong opener depth blocks).bind (depthAlong opener · more) :=
  List.foldlM_append

/-- A search finds nothing exactly if it has a count to the end. -/
theorem closerFrom?_eq_none_iff_depthAlong : closerFrom? opener depth blocks = none ↔
    ∃ next, depthAlong opener depth blocks = some next := by
  induction blocks generalizing depth with
  | nil => exact iff_of_true rfl ⟨depth, depthAlong_nil opener depth⟩
  | cons block blocks ih =>
    rw [closerFrom?, depthAlong_cons]
    cases depthAfter opener depth (ofBlock? block) with
    | none =>
      constructor
      · intro h
        cases h
      · rintro ⟨next, h⟩
        cases h
    | some inner => rw [Option.map_eq_none_iff, ih, Option.bind_some]

/-- Where more is closed than opened, the count does not come to the end. -/
theorem depthAlong_take_of_lt (h : depthAlong opener depth (blocks.take n) ≠ none) {m : Nat}
    (hm : m < n) (hc : blocks[m]?.any opener.isClosedLike = true) :
    depth + opener.opened (blocks.take m) ≠ opener.closed (blocks.take m) := by
  intro hl
  apply h
  cases hb : blocks[m]? with
  | none => simp [hb] at hc
  | some block =>
    rw [hb, Option.any_some] at hc
    have hs : blocks.take n = blocks.take m ++ block :: (blocks.take n).drop (m + 1) := by
      have hlt : m < (blocks.take n).length := by
        have := (List.getElem?_eq_some_iff.1 hb).1
        rw [List.length_take]
        omega
      have hget : (blocks.take n)[m] = block := by
        rw [List.getElem_take]
        exact (List.getElem?_eq_some_iff.1 hb).2
      have htake : (blocks.take n).take m = blocks.take m := by
        rw [List.take_take, Nat.min_eq_left (Nat.le_of_lt hm)]
      rw [← htake, ← hget, List.getElem_cons_drop, List.take_append_drop]
    rw [hs, depthAlong_append]
    cases hd : depthAlong opener depth (blocks.take m) with
    | none => rfl
    | some next =>
      have hz : next = 0 := by
        have := depthAlong_add hd
        omega
      rw [Option.bind_some, depthAlong_cons, depthAfter_eq_none_iff.2 ⟨hc, hz⟩, Option.bind_none]

/-! ### The first place that balances -/

/-- The places of closers in front of which as much is closed as is opened. -/
def levels (opener : Marker) (depth : Nat) (blocks : List Block) : Set Nat :=
  {n | blocks[n]?.any opener.isClosedLike = true ∧
    depth + opener.opened (blocks.take n) = opener.closed (blocks.take n)}

/-- The search finds the first of these places. -/
theorem isLeast_of_closerFrom? (h : closerFrom? opener depth blocks = some n) :
    IsLeast (levels opener depth blocks) n := by
  obtain ⟨hc, hd⟩ := closerFrom?_eq_some_iff_depthAlong.1 h
  constructor
  · have := depthAlong_add hd
    exact ⟨hc, by omega⟩
  · intro m hm
    by_contra hlt
    have hne : depthAlong opener depth (blocks.take n) ≠ none := by simp [hd]
    exact depthAlong_take_of_lt hne (Nat.lt_of_not_le hlt) hm.1 hm.2

/-- The search finds a place if there is any. -/
theorem exists_closerFrom?_of_mem (h : n ∈ levels opener depth blocks) :
    ∃ m, closerFrom? opener depth blocks = some m := by
  cases hf : closerFrom? opener depth blocks with
  | some m => exact ⟨m, rfl⟩
  | none =>
    obtain ⟨hc, hl⟩ := h
    obtain ⟨next, hn⟩ := closerFrom?_eq_none_iff_depthAlong.1 hf
    rw [← List.take_append_drop n blocks, depthAlong_append, Option.bind_eq_some_iff] at hn
    obtain ⟨inner, hi, -⟩ := hn
    have hz : inner = 0 := by
      have := depthAlong_add hi
      omega
    rw [hz] at hi
    rw [closerFrom?_eq_some_iff_depthAlong.2 ⟨hc, hi⟩] at hf
    cases hf

theorem closerFrom?_eq_some_iff :
    closerFrom? opener depth blocks = some n ↔ IsLeast (levels opener depth blocks) n := by
  constructor
  · exact isLeast_of_closerFrom?
  · intro h
    obtain ⟨m, hm⟩ := exists_closerFrom?_of_mem h.1
    rw [hm, (isLeast_of_closerFrom? hm).unique h]

theorem closerFrom?_eq_none_iff :
    closerFrom? opener depth blocks = none ↔ ∀ n, n ∉ levels opener depth blocks := by
  constructor
  · intro h n hn
    obtain ⟨m, hm⟩ := exists_closerFrom?_of_mem hn
    rw [hm] at h
    cases h
  · intro h
    cases hf : closerFrom? opener depth blocks with
    | none => rfl
    | some n => exact absurd (isLeast_of_closerFrom? hf).1 (h n)

/-- The search only sees which paragraphs open and which close a part of the kind of the opener. -/
theorem closerFrom?_congr {others : List Block}
    (h : List.Forall₂ (fun block other ↦ opener.isOpenedLike block = opener.isOpenedLike other ∧
      opener.isClosedLike block = opener.isClosedLike other) blocks others) (depth : Nat) :
    closerFrom? opener depth others = closerFrom? opener depth blocks := by
  induction h generalizing depth with
  | nil => rfl
  | cons hb _ ih =>
    rw [closerFrom?, closerFrom?, depthAfter_ofBlock?, depthAfter_ofBlock?, hb.1, hb.2]
    simp only [ih]

/-! ### The place in the whole list -/

variable {place last : Nat}

/-- The places behind a place, counted from there. -/
theorem balances_iff :
    Balances opener blocks place last ↔
      ∃ n ∈ levels opener 0 (blocks.drop (place + 1)), n + (place + 1) = last := by
  have hlevel (n : Nat) : between blocks place (n + (place + 1)) =
      (blocks.drop (place + 1)).take n := by
    rw [between, List.drop_take, Nat.add_sub_cancel]
  have hplace (n : Nat) : (blocks.drop (place + 1))[n]? = blocks[n + (place + 1)]? := by
    rw [List.getElem?_drop, Nat.add_comm]
  constructor
  · rintro ⟨hb, hc, hl⟩
    obtain ⟨n, rfl⟩ : ∃ n, last = n + (place + 1) := ⟨last - (place + 1), by omega⟩
    refine ⟨n, ⟨?_, ?_⟩, rfl⟩
    · rw [hplace, hc]
    · rw [Nat.zero_add, ← hlevel, hl]
  · rintro ⟨n, ⟨hc, hl⟩, rfl⟩
    refine ⟨by omega, ?_, ?_⟩
    · rw [← hplace, hc]
    · rw [hlevel, ← hl, Nat.zero_add]

theorem terminator?_eq_some_iff :
    terminator? blocks place opener = some last ↔
      IsLeast {last | Balances opener blocks place last} last := by
  rw [terminator?, closer?, Option.map_eq_some_iff]
  constructor
  · rintro ⟨n, hn, rfl⟩
    obtain ⟨hm, hl⟩ := closerFrom?_eq_some_iff.1 hn
    refine ⟨balances_iff.2 ⟨n, hm, rfl⟩, ?_⟩
    intro other ho
    obtain ⟨m, hm, rfl⟩ := balances_iff.1 ho
    exact Nat.add_le_add_right (hl hm) _
  · rintro ⟨hm, hl⟩
    obtain ⟨n, hn, rfl⟩ := balances_iff.1 hm
    refine ⟨n, closerFrom?_eq_some_iff.2 ⟨hn, ?_⟩, rfl⟩
    intro m hm
    exact Nat.le_of_add_le_add_right (hl (balances_iff.2 ⟨m, hm, rfl⟩))

theorem terminator?_eq_none_iff :
    terminator? blocks place opener = none ↔ ∀ last, ¬Balances opener blocks place last := by
  rw [terminator?, closer?, Option.map_eq_none_iff, closerFrom?_eq_none_iff]
  constructor
  · intro h last hb
    obtain ⟨n, hn, -⟩ := balances_iff.1 hb
    exact h n hn
  · intro h n hn
    exact h _ (balances_iff.2 ⟨n, hn, rfl⟩)

/-- The search reads the paragraphs up to the closer and no others. -/
theorem terminator?_eq_some_iff_depthAlong :
    terminator? blocks place opener = some last ↔
      place < last ∧ blocks[last]?.any opener.isClosedLike = true ∧
        depthAlong opener 0 (between blocks place last) = some 0 := by
  rw [terminator?, closer?, Option.map_eq_some_iff]
  constructor
  · rintro ⟨n, hn, rfl⟩
    obtain ⟨hc, hd⟩ := closerFrom?_eq_some_iff_depthAlong.1 hn
    rw [List.getElem?_drop, Nat.add_comm] at hc
    refine ⟨by omega, hc, ?_⟩
    rw [between, List.drop_take, Nat.add_sub_cancel, hd]
  · rintro ⟨hb, hc, hd⟩
    refine ⟨last - (place + 1), closerFrom?_eq_some_iff_depthAlong.2 ⟨?_, ?_⟩, by omega⟩
    · rw [List.getElem?_drop, Nat.add_sub_of_le hb, hc]
    · rw [← List.drop_take]
      exact hd

/-- A search for which there is no closer goes to the end. -/
theorem terminator?_eq_none_iff_depthAlong :
    terminator? blocks place opener = none ↔
      ∃ depth, depthAlong opener 0 (blocks.drop (place + 1)) = some depth := by
  rw [terminator?, closer?, Option.map_eq_none_iff, closerFrom?_eq_none_iff_depthAlong]

/-- The closer of an opener is the first paragraph behind it that closes a part of its kind and in
front of which as many such parts are closed as are opened; none is found if there is none. The
search comes to its closer with nothing left to close, and to the end if it finds none. All the way
it has a count, which is what is opened less what is closed, so that nothing is ever taken away from
zero. All that it sees of a paragraph is whether it opens or closes a part of this kind, which
markers of the other kind do as little as paragraphs that are no markers; and what stands behind the
closer may be replaced by anything. -/
theorem terminator?_balances (opener : Marker) (blocks : List Block) (place : Nat) :
    (∀ last, terminator? blocks place opener = some last ↔
      IsLeast {last | Balances opener blocks place last} last) ∧
    (terminator? blocks place opener = none ↔ ∀ last, ¬Balances opener blocks place last) ∧
    (∀ last, terminator? blocks place opener = some last ↔
      place < last ∧ blocks[last]?.any opener.isClosedLike = true ∧
        depthAlong opener 0 (between blocks place last) = some 0) ∧
    (terminator? blocks place opener = none ↔
      ∃ depth, depthAlong opener 0 (blocks.drop (place + 1)) = some depth) ∧
    (∀ walked rest depth, depthAlong opener 0 (walked ++ rest) = some depth →
      ∃ here, depthAlong opener 0 walked = some here ∧
        here + opener.closed walked = opener.opened walked) ∧
    (∀ others, List.Forall₂ (fun block other ↦
        opener.isOpenedLike block = opener.isOpenedLike other ∧
          opener.isClosedLike block = opener.isClosedLike other) blocks others →
      terminator? others place opener = terminator? blocks place opener) ∧
    (∀ block, opener.isForeign block = true →
      opener.isOpenedLike block = false ∧ opener.isClosedLike block = false) ∧
    ∀ last more, terminator? blocks place opener = some last →
      terminator? (blocks.take (last + 1) ++ more) place opener = some last := by
  refine ⟨fun _ ↦ terminator?_eq_some_iff, terminator?_eq_none_iff,
    fun _ ↦ terminator?_eq_some_iff_depthAlong, terminator?_eq_none_iff_depthAlong, ?_, ?_,
    fun _ ↦ not_isOpenedLike_of_isForeign, ?_⟩
  · intro walked rest depth h
    rw [depthAlong_append, Option.bind_eq_some_iff] at h
    obtain ⟨here, hw, -⟩ := h
    exact ⟨here, hw, by rw [depthAlong_add hw, Nat.zero_add]⟩
  · intro others h
    rw [terminator?, closer?, closerFrom?_congr (List.forall₂_drop _ h) 0]
    rfl
  · intro last more h
    obtain ⟨hb, hc, hd⟩ := terminator?_eq_some_iff_depthAlong.1 h
    have hlength : last < blocks.length := by
      by_contra hn
      rw [List.getElem?_eq_none (Nat.le_of_not_lt hn)] at hc
      cases hc
    have htake : (blocks.take (last + 1) ++ more).take last = blocks.take last := by
      rw [List.take_append_of_le_length (by rw [List.length_take]; omega), List.take_take,
        Nat.min_eq_left (Nat.le_succ last)]
    apply terminator?_eq_some_iff_depthAlong.2
    refine ⟨hb, ?_, ?_⟩
    · rw [List.getElem?_append_left (by rw [List.length_take]; omega), List.getElem?_take,
        if_pos (Nat.lt_succ_self last), hc]
    · rw [between, htake]
      exact hd

end Marker

end LoanClosing
