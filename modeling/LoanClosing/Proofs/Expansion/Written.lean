import LoanClosing.Proofs.Condition.Parser
import LoanClosing.Proofs.Condition.Paths
import LoanClosing.Proofs.Expansion.Passes
import LoanClosing.Proofs.Placeholder.Substitution
import Mathlib.Data.List.Basic

/-!
# What a template asks of the data

A template sees the data of a loan through the paths that are written in it: as placeholders, as
sources of loops, and in conditions. Two loans for which those paths lead to the same give the same
expansion, whatever else their data hold. Inside of loops other paths come in, which start with the
variable of a loop; but the items that these lead into are already the same.
-/

namespace LoanClosing

namespace Scope

/-- A name is looked up among the variables of the loops first. -/
theorem binding?_eq (scope : Scope) (name : String) :
    scope.binding? name = (Table.find? name scope.frames).or
      (if scope.rootName = name then some scope.root else none) := by
  rw [binding?]
  induction scope.frames with
  | nil => rfl
  | cons frame frames ih =>
    rw [List.cons_append, Table.find?, Table.find?]
    split
    · rfl
    · exact ih

end Scope

/-- A path is written in a paragraph: as a placeholder in a paragraph that is no marker, as the
source of a loop, or in a condition, as it reads where some loops are around it. -/
inductive Block.Writes (rootName : String) (block : Block) : List String → Prop where
  | placeholder {key : String} (hm : Marker.ofBlock? block = none) (hk : key ∈ block.keys)
    (ht : key ≠ String.ofList Placeholder.tabKey) : Writes rootName block (Scope.segments key)
  | source {item source : String} (hm : Marker.ofBlock? block = some (.forEach item source)) :
    Writes rootName block (Scope.segments source)
  | reference {condition : String} {path : List String} (loops : List String)
    (hm : Marker.ofBlock? block = some (.ifThen condition))
    (hp : path ∈ Condition.pathsIn (loops ++ [rootName]) condition) : Writes rootName block path

/-- No path is written in a closer. -/
theorem Block.not_writes_of_closer {rootName : String} {block : Block} {marker : Marker}
    (hm : Marker.ofBlock? block = some marker) (ho : marker.isOpening = false)
    {path : List String} : ¬ block.Writes rootName path := by
  intro hw
  cases hw with
  | placeholder hn => simp [hm] at hn
  | source hs =>
    obtain rfl := Option.some.inj (hm.symm.trans hs)
    cases ho
  | reference loops hr =>
    obtain rfl := Option.some.inj (hm.symm.trans hr)
    cases ho

/-- Two scopes are alike for paragraphs: they have the same loops around them, and paths that are
written in the paragraphs and start with the name of the whole data lead to the same in both. -/
structure Scope.Alike (blocks : List Block) (scope other : Scope) : Prop where
  rootName : scope.rootName = other.rootName
  frames : scope.frames = other.frames
  root : ∀ path, path.head? = some scope.rootName →
    (∃ block ∈ blocks, block.Writes scope.rootName path) →
    (outermost scope.rootName scope.root).resolveSegments path =
      (outermost other.rootName other.root).resolveSegments path

namespace Scope.Alike

variable {blocks more : List Block} {scope other : Scope}

/-- Scopes that are alike for paragraphs are alike for fewer. -/
theorem mono (h : Alike more scope other) (hs : blocks ⊆ more) : Alike blocks scope other where
  rootName := h.rootName
  frames := h.frames
  root := fun path hh ⟨block, hb, hw⟩ ↦ h.root path hh ⟨block, hs hb, hw⟩

/-- Scopes that are alike stay so inside of a loop. -/
theorem withItem (h : Alike blocks scope other) (name : String) (item : Value) :
    Alike blocks (scope.withItem name item) (other.withItem name item) where
  rootName := h.rootName
  frames := by simp only [Scope.withItem, h.frames]
  root := h.root

/-- Scopes that are alike have the same names. -/
theorem names (h : Alike blocks scope other) : scope.names = other.names := by
  rw [Scope.names, Scope.names, h.frames, h.rootName]

/-- Any path that is written in the paragraphs leads to the same in scopes that are alike. -/
theorem resolveSegments (h : Alike blocks scope other) {block : Block} (hb : block ∈ blocks)
    {path : List String} (hw : block.Writes scope.rootName path) :
    scope.resolveSegments path = other.resolveSegments path := by
  cases path with
  | nil => rfl
  | cons head rest =>
    rw [Scope.resolveSegments, Scope.resolveSegments, binding?_eq, binding?_eq, ← h.frames,
      ← h.rootName]
    cases Table.find? head scope.frames with
    | some item => rfl
    | none =>
      by_cases hn : scope.rootName = head
      · -- No loop has the name, so the path starts at the whole data.
        have hr := h.root (head :: rest) (by rw [hn]; rfl) ⟨block, hb, hw⟩
        rw [Scope.resolveSegments, Scope.resolveSegments, binding?_eq, binding?_eq] at hr
        simpa only [outermost, Table.find?, ← h.rootName, hn, if_true, Option.none_or] using hr
      · simp only [hn, if_false, Option.none_or]

/-- A loop runs over the same items in scopes that are alike. -/
theorem resolveItems (h : Alike blocks scope other) {block : Block} (hb : block ∈ blocks)
    {item source : String} (hm : Marker.ofBlock? block = some (.forEach item source)) :
    scope.resolveItems source = other.resolveItems source := by
  rw [Scope.resolveItems, Scope.resolveItems, resolve, resolve, h.resolveSegments hb (.source hm)]

/-- A condition holds in both of two scopes that are alike, or in neither. -/
theorem holds (h : Alike blocks scope other) {block : Block} (hb : block ∈ blocks)
    {condition : String} (hm : Marker.ofBlock? block = some (.ifThen condition)) :
    Condition.holds scope condition = Condition.holds other condition :=
  Condition.holds_congr h.names fun _ hp ↦ h.resolveSegments hb (.reference _ hm hp)

/-- What becomes of a placeholder is the same in scopes that are alike. -/
theorem filling (h : Alike blocks scope other) {block : Block} (hb : block ∈ blocks)
    (hm : Marker.ofBlock? block = none) {inner : List Glyph}
    (hi : Segment.placeholder inner ∈ block.segments) :
    Placeholder.filling scope (Glyph.chars inner) =
      Placeholder.filling other (Glyph.chars inner) := by
  rw [Placeholder.filling, Placeholder.filling]
  by_cases ht : Glyph.chars inner = Placeholder.tabKey
  · rw [if_pos ht, if_pos ht]
  · rw [if_neg ht, if_neg ht]
    by_cases hp : Placeholder.isPath (Glyph.chars inner) = true
    · have hk : String.ofList (Glyph.chars inner) ∈ block.keys := by
        rw [Block.keys_eq]
        refine List.mem_map_of_mem (List.mem_filter.mpr ⟨?_, by simp [hp]⟩)
        exact List.mem_filterMap.mpr ⟨_, hi, rfl⟩
      have hn : String.ofList (Glyph.chars inner) ≠ String.ofList Placeholder.tabKey :=
        fun he ↦ ht (String.ofList_injective he)
      rw [resolve, resolve, h.resolveSegments hb (.placeholder hm hk hn)]
    · rw [if_neg hp, if_neg hp]

/-- A paragraph that opens nothing becomes the same in scopes that are alike. -/
theorem ofLoose (h : Alike blocks scope other) (fills : Bool) {block : Block}
    (hb : block ∈ blocks) :
    Expansion.ofLoose fills scope block = Expansion.ofLoose fills other block := by
  rw [Expansion.ofLoose, Expansion.ofLoose]
  cases hm : Marker.ofBlock? block with
  | some marker => rfl
  | none =>
    cases fills with
    | false => rfl
    | true =>
      have hf : ∀ segment ∈ block.segments, Placeholder.fillSegment scope segment =
          Placeholder.fillSegment other segment := by
        intro segment hs
        cases segment with
        | plain glyph => rfl
        | placeholder inner =>
          rw [Placeholder.fillSegment, Placeholder.fillSegment, h.filling hb hm hs]
      have ht : ∀ segment ∈ block.segments, Placeholder.tallySegment scope segment =
          Placeholder.tallySegment other segment := by
        intro segment hs
        cases segment with
        | plain glyph => rfl
        | placeholder inner =>
          rw [Placeholder.tallySegment, Placeholder.tallySegment, h.filling hb hm hs]
      simp only [Option.isSome_none, Bool.false_eq_true, if_false, Expansion.ofPlain, if_true,
        Block.fill_eq, Block.tally_eq, List.flatMap_congr hf, List.map_congr_left ht]

/-- A part becomes the same in scopes that are alike, if its paragraphs do. -/
theorem ofPart (h : Alike blocks scope other) {block : Block} (hb : block ∈ blocks)
    {marker : Marker} (hm : Marker.ofBlock? block = some marker) {expand : Scope → Expansion}
    (he : ∀ {inner outer : Scope}, Alike blocks inner outer → expand inner = expand outer) :
    Expansion.ofPart expand scope marker = Expansion.ofPart expand other marker := by
  cases marker with
  | ifThen condition => rw [Expansion.ofPart, Expansion.ofPart, h.holds hb hm, he h]
  | forEach item source =>
    have hf : (fun value ↦ expand (scope.withItem item value)) =
        fun value ↦ expand (other.withItem item value) :=
      funext fun value ↦ he (h.withItem item value)
    rw [Expansion.ofPart, Expansion.ofPart, h.resolveItems hb hm, hf]
  | endIf => rfl
  | endForEach => rfl

end Scope.Alike

/-- Paragraphs expand to the same in scopes that are alike for them. -/
theorem expand_congr {blocks : List Block} {scope other : Scope}
    (h : Scope.Alike blocks scope other) (fills : Bool) :
    expand fills blocks scope = expand fills blocks other := by
  induction blocks using Marker.induction_on_parts generalizing scope other with
  | nil => rw [expand_nil, expand_nil]
  | loose block rest hl ih =>
    rw [expand_loose hl, expand_loose hl, h.ofLoose fills List.mem_cons_self,
      ih (h.mono (List.subset_cons_self block rest))]
  | unclosed block rest marker hm ho hc => rw [expand_unclosed hm ho hc, expand_unclosed hm ho hc]
  | closed block body closer after marker hm ho hc ihb iha =>
    have hb : body ⊆ block :: (body ++ closer :: after) := by
      intro paragraph hp
      simp [hp]
    have ha : after ⊆ block :: (body ++ closer :: after) := by
      intro paragraph hp
      simp [hp]
    have hp : Expansion.ofPart (expand fills body) scope marker =
        Expansion.ofPart (expand fills body) other marker :=
      h.ofPart List.mem_cons_self hm fun hi ↦ ihb (hi.mono hb)
    rw [expand_closed hm ho hc, expand_closed hm ho hc, hp, iha (h.mono ha)]

namespace Processor

/-- What a template gives depends only on the data that it names. If every path that is written in
the template and starts with the name of the whole data leads to the same in the data of two loans,
every container expands to the same for both: paragraphs, whether it was stopped, and counts. And if
that leaves no marker, which data may bring in, the processed containers and the report are the
same. -/
theorem process_eq_of_written (processor : Processor) (containers : List Container)
    {model other : Value}
    (h : ∀ path, path.head? = some processor.rootName →
      (∃ container ∈ containers, ∃ block ∈ container.blocks,
        block.Writes processor.rootName path) →
      (Scope.outermost processor.rootName model).resolveSegments path =
        (Scope.outermost processor.rootName other).resolveSegments path) :
    let scope := Scope.outermost processor.rootName model
    (∀ container ∈ containers, expand true container.blocks scope =
      expand true container.blocks (.outermost processor.rootName other)) ∧
    ((∀ container ∈ containers, Marker.count (expand true container.blocks scope).blocks = 0) →
      processor.process containers model = processor.process containers other) := by
  intro scope
  have he : ∀ container ∈ containers, expand true container.blocks scope =
      expand true container.blocks (.outermost processor.rootName other) := by
    intro container hc
    have ha : Scope.Alike container.blocks scope (.outermost processor.rootName other) :=
      ⟨rfl, rfl, fun path hh hw ↦ h path hh ⟨container, hc, hw⟩⟩
    exact expand_congr ha true
  refine ⟨he, fun hz ↦ ?_⟩
  have hp : ∀ container ∈ containers, processor.processContainer scope container =
      processor.processContainer (.outermost processor.rootName other) container := by
    intro container hc
    have hm := hz container hc
    rw [he container hc] at hm
    simp only [processContainer, he container hc, extraPasses_of_count_eq_zero _ _ hm]
  simp only [process, List.map_congr_left hp, scope]

/-- Two loans whose data differ only in what the template does not name; a text that is put into
the template looks like a placeholder for it. -/
theorem process_eq_of_written_secret :
    let opener : Block := .ofText "FOREACH party IN Loan.Parties"
    let test : Block := .ofText "IF Loan.State = 'CA'"
    let line : Block := .ofText "\x7bparty.Name\x7d"
    let containers : List Container :=
      [⟨"body", [opener, test, line, .ofText "ENDIF", .ofText "ENDFOREACH"]⟩]
    let model (secret : String) : Value :=
      .object [("Parties", .list [.object [("Name", .text "\x7bLoan.Secret\x7d")]]),
        ("State", .text "CA"), ("Secret", .text secret)]
    (∀ path, path.head? = some "Loan" →
      (∃ container ∈ containers, ∃ block ∈ container.blocks, block.Writes "Loan" path) →
      (Scope.outermost "Loan" (model "one")).resolveSegments path =
        (Scope.outermost "Loan" (model "two")).resolveSegments path) ∧
    (∀ container ∈ containers,
      Marker.count (expand true container.blocks (.outermost "Loan" (model "one"))).blocks = 0) ∧
    ((Scope.outermost "Loan" (model "one")).resolve "Loan.Secret" = .found (.text "one") ∧
      (Scope.outermost "Loan" (model "two")).resolve "Loan.Secret" = .found (.text "two")) ∧
    Processor.default.process containers (model "one") =
      Processor.default.process containers (model "two") := by
  intro opener test line containers model
  have hf : Marker.ofBlock? opener = some (.forEach "party" "Loan.Parties") := by decide
  have hi : Marker.ofBlock? test = some (.ifThen "Loan.State = 'CA'") := by decide
  have hl : Marker.ofBlock? line = none := by decide
  have hei : Marker.ofBlock? (.ofText "ENDIF") = some .endIf := by decide
  have hef : Marker.ofBlock? (.ofText "ENDFOREACH") = some .endForEach := by decide
  have hk : line.keys = ["party.Name"] := rfl
  -- The condition refers to the same path, whatever loops are around it.
  have hr : ∀ loops, Condition.pathsIn (loops ++ ["Loan"]) "Loan.State = 'CA'" =
      [["Loan", "State"]] := by
    intro loops
    have hn : Condition.normalize "Loan.State = 'CA'".toList = "Loan.State == 'CA'".toList := by
      decide +kernel
    have hq : Condition.qualify (loops ++ ["Loan"]) "Loan.State == 'CA'".toList =
        "@Loan.State == 'CA'".toList := by
      simp [Condition.qualify, Condition.mark, Condition.isQuote, Text.isIdentifierStart,
        Text.isIdentifierPart, Condition.joinsWord]
    have hs : Condition.Token.scan? "@Loan.State == 'CA'".toList =
        some [.path ["Loan", "State"], .compare .equal, .literal (.text "CA")] := by decide +kernel
    have hp := Condition.parse?_eq_some_iff.2 ⟨_, hs, .conjunction (.negation (.comparison
      (.compare .equal (.path ["Loan", "State"]) (.literal (.text "CA")))))⟩
    rw [Condition.pathsIn, hn, hq, hp]
    rfl
  have h : ∀ path, path.head? = some "Loan" →
      (∃ container ∈ containers, ∃ block ∈ container.blocks, block.Writes "Loan" path) →
      (Scope.outermost "Loan" (model "one")).resolveSegments path =
        (Scope.outermost "Loan" (model "two")).resolveSegments path := by
    rintro path hh ⟨container, hc, block, hb, hw⟩
    obtain rfl := List.mem_singleton.mp hc
    simp only [List.mem_cons, List.not_mem_nil, or_false] at hb
    obtain rfl | rfl | rfl | rfl | rfl := hb
    · cases hw with
      | placeholder hm => rw [hf] at hm; cases hm
      | source hm => rw [hf] at hm; cases hm; rfl
      | reference loops hm => rw [hf] at hm; cases hm
    · cases hw with
      | placeholder hm => rw [hi] at hm; cases hm
      | source hm => rw [hi] at hm; cases hm
      | reference loops hm hp =>
        rw [hi] at hm
        cases hm
        rw [hr, List.mem_singleton] at hp
        rw [hp]
        rfl
    · cases hw with
      | placeholder hm hp =>
        rw [hk, List.mem_singleton] at hp
        rw [hp] at hh
        exact absurd hh (by decide)
      | source hm => rw [hl] at hm; cases hm
      | reference loops hm => rw [hl] at hm; cases hm
    · exact absurd hw (Block.not_writes_of_closer hei rfl)
    · exact absurd hw (Block.not_writes_of_closer hef rfl)
  have hz : Marker.count (expand true [opener, test, line, .ofText "ENDIF", .ofText "ENDFOREACH"]
      (.outermost "Loan" (model "one"))).blocks = 0 := by
    have hs : (Scope.outermost "Loan" (model "one")).resolveItems "Loan.Parties" =
        [.object [("Name", .text "\x7bLoan.Secret\x7d")]] := rfl
    have ho : expand true (opener :: ([test, line, .ofText "ENDIF"] ++ .ofText "ENDFOREACH" :: []))
        (.outermost "Loan" (model "one")) = _ := expand_closed hf rfl (by decide)
    have hb (scope : Scope) : expand true (test :: ([line] ++ .ofText "ENDIF" :: [])) scope = _ :=
      expand_closed hi rfl (by decide)
    simp only [Expansion.ofPart, expand_loose (Marker.opens_of_ofBlock?_none hl), expand_nil,
      Expansion.ofLoose, hl] at hb
    simp only [List.cons_append, List.nil_append] at ho hb
    simp only [Expansion.ofPart, hs, Expansion.forItems, hb, expand_nil] at ho
    rw [ho]
    split <;> decide
  have hz' : ∀ container ∈ containers,
      Marker.count (expand true container.blocks (.outermost "Loan" (model "one"))).blocks = 0 := by
    intro container hc
    obtain rfl := List.mem_singleton.mp hc
    exact hz
  exact ⟨h, hz', ⟨rfl, rfl⟩, (process_eq_of_written .default containers h).2 hz'⟩

end Processor

end LoanClosing
