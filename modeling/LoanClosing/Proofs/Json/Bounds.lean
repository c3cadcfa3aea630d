import LoanClosing.Proofs.Json.Tree

/-!
# Bounds on what is read

Every tree of a text is bounded: a container stands at a level of nesting below the limit, or is
marked, and a whole number is one of sixty-four bits. The bound holds of each token and is kept by
each step of the building of the tree.
-/

namespace LoanClosing.Json

/-! ### Whole numbers in tokens -/

namespace Token

/-- Whether a whole number in a token is one of sixty-four bits. -/
def InRange (token : Token) : Prop :=
  ∀ n, token = .number (.ok (.integer n)) → Number.InRange n

theorem inRange_of_ne {token : Token} (h : ∀ value, token ≠ .number value) : token.InRange :=
  fun _ ht ↦ absurd ht (h _)

theorem inRange_broken {quoted : Bool} {strict lenient : Fault} :
    (Token.broken quoted strict lenient).InRange := by
  intro n h
  cases h

variable {negative : Bool} {whole places : List Char}

/-- A number with a fraction or an exponent is no whole number. -/
theorem floatNumber_ne_integer (exponent n : Int) :
    floatNumber negative whole places exponent ≠ .ok (.integer n) := by
  unfold floatNumber
  dsimp only
  split <;> exact nofun

theorem inRange_wholeNumber {n : Int} (h : wholeNumber negative whole = .ok (.integer n)) :
    Number.InRange n := by
  unfold wholeNumber at h
  dsimp only at h
  split at h
  · next hn =>
    simp only [Bool.and_eq_true, decide_eq_true_eq] at hn
    have hle : Text.digitsValue whole ≤ 2 ^ 63 := hn.2
    obtain rfl := Number.integer.inj (Except.ok.inj h)
    constructor <;> omega
  · split at h
    · next hn =>
      simp only [Bool.and_eq_true, decide_eq_true_eq] at hn
      have hlt : Text.digitsValue whole < 2 ^ 64 := hn.2
      obtain rfl := Number.integer.inj (Except.ok.inj h)
      constructor <;> omega
    · exact absurd h (floatNumber_ne_integer 0 n)

theorem inRange_exponentPart (rest : Rest) :
    (exponentPart negative whole places rest).1.InRange := by
  intro n h
  unfold exponentPart at h
  split at h
  split at h
  · cases h
  · exact absurd (Token.number.inj h) (floatNumber_ne_integer _ n)

theorem inRange_afterWhole (rest : Rest) : (afterWhole negative whole rest).1.InRange := by
  unfold afterWhole
  split
  · split
    · exact inRange_broken
    · exact inRange_exponentPart _
    · exact inRange_exponentPart _
    · exact fun n h ↦ absurd (Token.number.inj h) (floatNumber_ne_integer _ n)
  · exact inRange_exponentPart _
  · exact inRange_exponentPart _
  · exact fun n h ↦ inRange_wholeNumber (Token.number.inj h)

theorem inRange_numberPart (rest : Rest) : (numberPart negative rest).1.InRange := by
  unfold numberPart
  split
  · exact inRange_broken
  · exact inRange_broken
  · exact inRange_afterWhole _

theorem inRange_word {token : Token} (h : token.InRange) (cs : List Char) (rest : Rest) :
    (word token cs rest).1.InRange := by
  fun_induction word token cs rest with
  | case1 => exact h
  | case2 => exact inRange_broken
  | case3 _ _ _ ih => exact ih
  | case4 => exact inRange_broken

theorem inRange_close (p : Partial) : p.close.InRange := by
  unfold Partial.close
  dsimp only
  generalize (if p.high.isSome = true then p.note .unpairedSurrogate else p) = q
  split
  · exact inRange_of_ne nofun
  · split <;> exact inRange_of_ne nofun

theorem inRange_textPart (p : Partial) (rest : Rest) : (textPart p rest).1.InRange := by
  fun_induction textPart p rest
  all_goals first | assumption | exact inRange_close _ | exact inRange_broken

theorem inRange_next (c : Char) (rest : Rest) : (next c rest).1.InRange := by
  have hword (token : Token) (h : ∀ value, token ≠ .number value) (cs : List Char) :
      (word token cs rest).1.InRange := inRange_word (inRange_of_ne h) cs rest
  unfold next
  split
  case h_7 => exact hword .null nofun _
  case h_8 => exact hword (.bool true) nofun _
  case h_9 => exact hword (.bool false) nofun _
  case h_10 => exact inRange_textPart _ _
  case h_11 => exact inRange_numberPart _
  case h_12 =>
    split
    · exact inRange_numberPart _
    · exact inRange_broken
  all_goals exact inRange_of_ne nofun

/-- Whole numbers in the tokens of a text are of sixty-four bits. -/
theorem inRange_of_mem_scan {token : Token} {rest : Rest} (h : token ∈ scan rest) :
    token.InRange := by
  fun_induction scan rest with
  | case1 => cases h
  | case2 => exact List.mem_singleton.1 h ▸ inRange_broken
  | case3 _ _ _ ih => exact ih h
  | case4 c rest => exact List.mem_singleton.1 h ▸ inRange_next c rest
  | case5 c rest _ _ ih =>
    rcases List.mem_cons.1 h with h | h
    · exact h ▸ inRange_next c rest
    · exact ih h

end Token

namespace Node

/-! ### Bounded trees -/

/-- A tree at a level of nesting whose containers are marked where they are nested too deep, and
whose whole numbers are of sixty-four bits. What stands under a key that is no text is left out. -/
inductive Bounded : Nat → Node → Prop
  | null {level : Nat} : Bounded level .null
  | bool {level : Nat} {b : Bool} : Bounded level (.bool b)
  | number {level : Nat} {value : Except Fault Number}
      (h : ∀ n, value = .ok (.integer n) → Number.InRange n) : Bounded level (.number value)
  | text {level : Nat} {value : Except Fault String} : Bounded level (.text value)
  | array {level : Nat} {items : List Node} {ending : Option Fault} (h : level < maxDepth)
      (hitems : ∀ item ∈ items, Bounded (level + 1) item) : Bounded level (.array items ending)
  | object {level : Nat} {members : List (Key × Node)} {ending : Option Fault}
      (h : level < maxDepth)
      (hmembers : ∀ key node, (.ok key, node) ∈ members → Bounded (level + 1) node) :
      Bounded level (.object members ending)
  | deep {level : Nat} {inner : Node} : Bounded level (.deep inner)
  | broken {level : Nat} {strict lenient : Fault} {bare : Bool} :
      Bounded level (.broken strict lenient bare)

/-- Whether the nodes in an open container are bounded at a level of nesting. -/
def Frame.Bounded (level : Nat) : Frame → Prop
  | .array items => ∀ item ∈ items, Node.Bounded level item
  | .object members | .member members _ =>
    ∀ key node, (.ok key, node) ∈ members → Node.Bounded level node

/-- Whether the nodes in open containers are bounded, the outermost container last. -/
def BoundedStack : List Frame → Prop
  | [] => True
  | frame :: stack => frame.Bounded (stack.length + 1) ∧ BoundedStack stack

/-- Whether the building of a tree stands where everything is bounded. -/
def BoundedProgress : Progress → Prop
  | .more _ stack => BoundedStack stack
  | .finished node | .stopped node => Bounded 0 node

variable {stack : List Frame} {items : List Node} {members : List (Key × Node)} {key : Key}
  {ending : Option Fault} {node : Node} {token : Token}

/-- An array, marked if need be, with the items read so far. -/
theorem bounded_guard_array (h : Frame.Bounded (stack.length + 1) (.array items)) :
    Bounded stack.length (guard stack (.array items.reverse ending)) := by
  unfold guard
  split
  · exact .deep
  · exact .array (by omega) fun item hi ↦ h item (List.mem_reverse.1 hi)

/-- An object, marked if need be, with the members read so far. -/
theorem bounded_guard_object (h : Frame.Bounded (stack.length + 1) (.object members)) :
    Bounded stack.length (guard stack (.object members.reverse ending)) := by
  unfold guard
  split
  · exact .deep
  · exact .object (by omega) fun key node hm ↦ h key node (List.mem_reverse.1 hm)

/-- One more item in an open array. -/
theorem bounded_item {level : Nat} (h : Frame.Bounded level (.array items))
    (hn : Bounded level node) : Frame.Bounded level (.array (node :: items)) :=
  List.forall_mem_cons.2 ⟨hn, h⟩

/-- One more member in an open object. -/
theorem bounded_member {level : Nat} (h : Frame.Bounded level (.object members))
    (hn : ∀ name, key = .ok name → Bounded level node) :
    Frame.Bounded level (.object ((key, node) :: members)) := by
  intro name value hm
  rcases List.mem_cons.1 hm with hm | hm
  · obtain ⟨hk, rfl⟩ := Prod.mk.inj hm
    exact hn name hk.symm
  · exact h name value hm

/-- The whole tree is bounded when a text breaks at a bounded node. -/
theorem bounded_abandon (h : BoundedStack stack) (hn : Bounded stack.length node) :
    Bounded 0 (abandon stack node) := by
  induction stack generalizing node with
  | nil => exact hn
  | cons frame stack ih =>
    cases frame with
    | array items => exact ih h.2 (bounded_guard_array (bounded_item h.1 hn))
    | object members => exact ih h.2 (bounded_guard_object h.1)
    | member members key => exact ih h.2 (bounded_guard_object (bounded_member h.1 fun _ _ ↦ hn))

theorem bounded_abandon_member (h : BoundedStack (.object members :: stack))
    (hn : ∀ name, key = .ok name → Bounded (stack.length + 1) node) :
    Bounded 0 (abandon (.member members key :: stack) node) := by
  change Bounded 0 (abandon stack (guard stack (.object ((key, node) :: members).reverse none)))
  exact bounded_abandon h.2 (bounded_guard_object (bounded_member h.1 hn))

/-- What a text breaks at under a key that is no text does not matter. -/
theorem bounded_abandon_key (h : BoundedStack (.object members :: stack)) (fault : Fault) :
    Bounded 0 (abandon (.member members (.error fault) :: stack) node) :=
  bounded_abandon_member h fun _ hk ↦ by cases hk

theorem bounded_complete (h : BoundedStack stack) (hn : Bounded stack.length node) :
    BoundedProgress (complete node stack) := by
  cases stack with
  | nil => exact hn
  | cons frame stack =>
    cases frame with
    | array items => exact ⟨bounded_item h.1 hn, h.2⟩
    | object members => exact h
    | member members key => exact ⟨bounded_member h.1 fun _ _ ↦ hn, h.2⟩

/-! ### Steps -/

theorem bounded_stepValue (h : BoundedStack stack) (ht : token.InRange) :
    BoundedProgress (stepValue stack token) := by
  cases token with
  | openArray => exact ⟨nofun, h⟩
  | openObject => exact ⟨nofun, h⟩
  | null => exact bounded_complete h .null
  | bool b => exact bounded_complete h .bool
  | number value => exact bounded_complete h (.number fun n hn ↦ ht n (hn ▸ rfl))
  | text value => exact bounded_complete h .text
  | _ => exact bounded_abandon h .broken

theorem bounded_stepKey (h : BoundedStack (.object members :: stack)) :
    BoundedProgress (stepKey members stack token) := by
  unfold stepKey
  split
  · exact h
  · exact bounded_abandon_key h _
  · exact bounded_abandon_key h _

theorem bounded_stepNext (h : BoundedStack stack) : BoundedProgress (stepNext stack token) := by
  unfold stepNext
  split
  · exact h
  · exact bounded_complete h.2 (bounded_guard_array h.1)
  · exact bounded_abandon h.2 (bounded_guard_array h.1)
  · exact h
  · exact bounded_complete h.2 (bounded_guard_object h.1)
  · exact bounded_abandon h.2 (bounded_guard_object h.1)
  · exact bounded_abandon h .broken

/-- A step keeps everything bounded. -/
theorem bounded_step (expect : Expect) (h : BoundedStack stack) (ht : token.InRange) :
    BoundedProgress (step expect stack token) := by
  unfold step
  split
  · exact bounded_stepValue h ht
  · exact bounded_complete h.2 (bounded_guard_array h.1)
  · exact bounded_stepValue h ht
  · exact bounded_abandon h .broken
  · exact bounded_stepValue h ht
  · exact bounded_stepNext h
  · exact bounded_complete h.2 (bounded_guard_object h.1)
  · exact bounded_abandon_key h _
  · exact bounded_stepKey h
  · exact bounded_stepKey h
  · exact h
  · exact bounded_abandon_member h fun _ _ ↦ .broken
  · exact bounded_abandon h .broken

/-- The tree of a text that ends early is bounded. -/
theorem bounded_ended (expect : Expect) (h : BoundedStack stack) :
    Bounded 0 (ended expect stack) := by
  unfold ended
  split
  · exact bounded_abandon h.2 (bounded_guard_array h.1)
  · exact bounded_abandon h.2 (bounded_guard_array h.1)
  · exact bounded_abandon h.2 (bounded_guard_object h.1)
  · exact bounded_abandon h.2 (bounded_guard_object h.1)
  · exact bounded_abandon_key h _
  · exact bounded_abandon_member h fun _ _ ↦ .broken
  · exact bounded_abandon h .broken

/-- Whatever is read gives a bounded tree. -/
theorem bounded_read (expect : Expect) (tokens : List Token) (h : BoundedStack stack)
    (ht : ∀ token ∈ tokens, token.InRange) : Bounded 0 (read expect stack tokens).1 := by
  induction tokens generalizing expect stack with
  | nil => exact bounded_ended expect h
  | cons token tokens ih =>
    have ⟨htoken, htokens⟩ := List.forall_mem_cons.1 ht
    have hstep := bounded_step expect h htoken
    rw [read_cons]
    generalize step expect stack token = progress at hstep ⊢
    cases progress with
    | more expect stack => exact ih expect hstep htokens
    | finished node => exact hstep
    | stopped node => exact hstep

/-- The tree of a text is bounded. -/
theorem bounded_ofRest (rest : Token.Rest) : Bounded 0 (ofRest rest).1 :=
  bounded_read .value _ trivial fun _ ↦ Token.inRange_of_mem_scan

end Node

end LoanClosing.Json
