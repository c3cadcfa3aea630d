import LoanClosing.Proofs.Condition.Parser
import LoanClosing.Document.Processing
import LoanClosing.Proofs.Expansion.Concat
import LoanClosing.Proofs.Placeholder.Leafwise
import Mathlib.Algebra.GroupWithZero.Nat

/-!
# What the number of unresolved placeholders counts

The first expansion of a container delivers paragraphs, each as written or filled in a scope. Where
it is stopped it gives up what it has filled in the part at which it stops, and delivers that part
as written. The number of unresolved placeholders counts what was given up as well: it is the number
of those in the delivered paragraphs just when nothing that was given up held one.
-/

namespace LoanClosing

/-- What an expansion makes of a paragraph. -/
inductive Delivery where
  | asWritten (block : Block)
  | filled (scope : Scope) (block : Block)

namespace Delivery

/-- The paragraph that stands in the document. -/
def block : Delivery → Block
  | .asWritten block => block
  | .filled scope block => block.fill scope

/-- How its placeholders are counted: not at all where it stays as written. -/
def tally : Delivery → Placeholder.Tally
  | .asWritten _ => .zero
  | .filled scope block => block.tally scope

/-- The placeholders that start with a name in scope, lead nowhere and leave nothing behind. -/
def unresolved : Delivery → Nat
  | .asWritten _ => 0
  | .filled scope block => block.keys.countP fun key ↦ scope.resolve key matches .missing

@[simp] theorem unresolved_asWritten (block : Block) : (asWritten block).unresolved = 0 := rfl

end Delivery

/-- An expansion with all that was filled for it. -/
structure Expansion.Account where
  delivered : List Delivery
  /-- Whether an opener without a closer stopped the expansion. -/
  aborted : Bool
  /-- What was filled in parts that are delivered as written. -/
  givenUp : List Delivery

namespace Expansion.Account

/-- The account of no paragraphs. -/
def empty : Account := ⟨[], false, []⟩

/-- Paragraphs that stay as written, whatever the part at which the expansion stops had come to. -/
def stopped (blocks : List Block) (part : Account) : Account :=
  ⟨blocks.map .asWritten, true, part.delivered ++ part.givenUp⟩

/-- One delivered paragraph in front of an account. -/
def cons (delivery : Delivery) (rest : Account) : Account :=
  { rest with delivered := delivery :: rest.delivered }

/-- One account in front of another, which says whether the expansion is stopped. -/
def append (first rest : Account) : Account :=
  ⟨first.delivered ++ rest.delivered, rest.aborted, first.givenUp ++ rest.givenUp⟩

/-- The accounts of all items, up to the first that is stopped. -/
def forItems (account : Value → Account) : List Value → Account
  | [] => empty
  | item :: items =>
    let first := account item
    if first.aborted then first else first.append (forItems account items)

/-- The account of the part that an opener opens. -/
def ofPart (account : Scope → Account) (scope : Scope) : Marker → Account
  | .ifThen condition => if Condition.holds scope condition then account scope else empty
  | .forEach item source =>
    forItems (fun value ↦ account (scope.withItem item value)) (scope.resolveItems source)
  | .endIf | .endForEach => empty

/-- The expansion that an account is of. -/
def expansion (account : Account) : Expansion :=
  ⟨account.delivered.map Delivery.block, account.aborted,
    .sum ((account.delivered ++ account.givenUp).map Delivery.tally)⟩

end Expansion.Account

open Expansion (Account)

/-- The account of expanding paragraphs in a scope. -/
def account (blocks : List Block) (scope : Scope) : Account :=
  match blocks with
  | [] => .empty
  | block :: rest =>
    match Marker.ofBlock? block with
    | none => (account rest scope).cons (.filled scope block)
    | some marker =>
      if marker.isOpening then
        match h : marker.closer? rest with
        | none => .stopped (block :: rest) .empty
        | some n =>
          have := Marker.lt_length_of_closerFrom? h
          let part := Account.ofPart (account (rest.take n)) scope marker
          if part.aborted then .stopped (block :: rest) part
          else part.append (account (rest.drop (n + 1)) scope)
      else (account rest scope).cons (.asWritten block)
termination_by blocks.length
decreasing_by all_goals simp only [List.length_cons, List.length_take, List.length_drop]; omega

/-! ### Steps of an account -/

/-- What becomes of a paragraph that opens nothing. -/
def Delivery.ofLoose (scope : Scope) (block : Block) : Delivery :=
  if (Marker.ofBlock? block).isSome then .asWritten block else .filled scope block

section Steps

variable {scope : Scope} {block closer : Block} {rest body after : List Block} {marker : Marker}

theorem account_nil (scope : Scope) : account [] scope = .empty := by
  rw [account]

theorem account_loose (h : Marker.opens block = false) :
    account (block :: rest) scope = (account rest scope).cons (.ofLoose scope block) := by
  rw [account]
  split
  · next hm => simp [Delivery.ofLoose, hm]
  · next marker hm =>
    have ho : marker.isOpening = false := by simpa [Marker.opens, hm] using h
    simp [Delivery.ofLoose, hm, ho]

theorem account_unclosed (hm : Marker.ofBlock? block = some marker)
    (ho : marker.isOpening = true) (hc : marker.closer? rest = none) :
    account (block :: rest) scope = .stopped (block :: rest) .empty := by
  rw [account]
  split
  · next h => simp [hm] at h
  · next other h =>
    obtain rfl : marker = other := by simpa [hm] using h
    rw [if_pos ho]
    split
    · rfl
    · next n h => simp [hc] at h

theorem account_closed (hm : Marker.ofBlock? block = some marker) (ho : marker.isOpening = true)
    (hc : marker.closer? (body ++ closer :: after) = some body.length) :
    account (block :: (body ++ closer :: after)) scope =
      let part := Account.ofPart (account body) scope marker
      if part.aborted then .stopped (block :: (body ++ closer :: after)) part
      else part.append (account after scope) := by
  rw [account]
  split
  · next h => simp [hm] at h
  · next other h =>
    obtain rfl : marker = other := by simpa [hm] using h
    rw [if_pos ho]
    split
    · next h => simp [hc] at h
    · next n h =>
      obtain rfl : body.length = n := by simpa [hc] using h
      rw [List.take_left, List.drop_append, List.drop_of_length_le (Nat.le_succ _)]
      simp

end Steps

/-! ### Tallies -/

namespace Placeholder.Tally

theorem add_left_comm (a b c : Tally) : a.add (b.add c) = b.add (a.add c) := by
  simp [add, Nat.add_left_comm, Bool.or_left_comm]

theorem sum_append (first rest : List Tally) :
    sum (first ++ rest) = (sum first).add (sum rest) := by
  induction first with
  | nil => rw [List.nil_append, sum, zero_add]
  | cons tally first ih => rw [List.cons_append, sum, sum, ih, add_assoc]

theorem missing_sum (tallies : List Tally) :
    (sum tallies).missing = (tallies.map Tally.missing).sum := by
  induction tallies with
  | nil => rfl
  | cons tally tallies ih => rw [sum, List.map_cons, List.sum_cons, ← ih, add]

end Placeholder.Tally

/-- A name without members below it leads to a value, or is not in scope. -/
theorem Scope.resolve_tabKey (scope : Scope) :
    scope.resolve (String.ofList Placeholder.tabKey) ≠ .missing := by
  have hs : Scope.segments (String.ofList Placeholder.tabKey) = ["TAB"] := by decide
  rw [resolve, hs, resolveSegments]
  cases scope.binding? "TAB" <;> simp [Value.descend]

/-- The tally of a delivered paragraph counts the placeholders that lead nowhere. -/
theorem Delivery.missing_tally (delivery : Delivery) :
    delivery.tally.missing = delivery.unresolved := by
  cases delivery with
  | asWritten block => rfl
  | filled scope block =>
    rw [tally, unresolved, Block.tally_eq, Placeholder.sum_tallySegment, Block.keys_eq,
      List.countP_map, List.countP_filter]
    refine List.countP_congr fun key _ ↦ ?_
    rw [decide_eq_true_eq, Placeholder.filling_eq_missing_iff]
    by_cases ht : key = Placeholder.tabKey
    · have hr := scope.resolve_tabKey
      subst ht
      cases hs : scope.resolve (String.ofList Placeholder.tabKey) <;> simp_all
    · cases hs : scope.resolve (String.ofList key) <;> simp [ht, hs]

/-! ### The expansion of an account -/

namespace Expansion.Account

theorem expansion_stopped (blocks : List Block) (part : Account) :
    (stopped blocks part).expansion = .stopped blocks part.expansion.tally := by
  have htally : Placeholder.Tally.sum ((blocks.map Delivery.asWritten).map Delivery.tally) =
      .zero := by
    induction blocks with
    | nil => rfl
    | cons block blocks ih => simpa [Placeholder.Tally.sum, Delivery.tally] using ih
  have hblocks : (blocks.map Delivery.asWritten).map Delivery.block = blocks := by
    rw [List.map_map]
    exact List.map_id blocks
  have hall : Placeholder.Tally.sum (((blocks.map Delivery.asWritten) ++
      (part.delivered ++ part.givenUp)).map Delivery.tally) = part.expansion.tally := by
    rw [List.map_append, Placeholder.Tally.sum_append, htally, Placeholder.Tally.zero_add]
    rfl
  rw [expansion, stopped, hblocks, hall]
  rfl

theorem expansion_cons (delivery : Delivery) (rest : Account) :
    (rest.cons delivery).expansion = rest.expansion.cons delivery.block delivery.tally := by
  simp [expansion, cons, Expansion.cons, Placeholder.Tally.sum]

theorem expansion_append (first rest : Account) :
    (first.append rest).expansion = first.expansion.append rest.expansion := by
  simp [expansion, append, Expansion.append, Placeholder.Tally.sum_append,
    Placeholder.Tally.add_assoc, Placeholder.Tally.add_left_comm]

theorem expansion_forItems (account : Value → Account) (items : List Value) :
    (forItems account items).expansion =
      Expansion.forItems (fun item ↦ (account item).expansion) items := by
  induction items with
  | nil => rfl
  | cons item items ih =>
    rw [forItems, Expansion.forItems]
    split
    · next ha => exact (if_pos ha).symm
    · next ha => rw [expansion_append, ih]; exact (if_neg ha).symm

theorem expansion_ofPart (account : Scope → Account) (scope : Scope) (marker : Marker) :
    (ofPart account scope marker).expansion =
      Expansion.ofPart (fun scope ↦ (account scope).expansion) scope marker := by
  cases marker with
  | ifThen condition =>
    rw [ofPart, Expansion.ofPart]
    split <;> rfl
  | forEach item source => exact expansion_forItems _ _
  | endIf => rfl
  | endForEach => rfl

end Expansion.Account

theorem Delivery.ofLoose_eq (scope : Scope) (block : Block) :
    ((ofLoose scope block).block, (ofLoose scope block).tally) =
      Expansion.ofLoose true scope block := by
  rw [ofLoose, Expansion.ofLoose]
  split <;> rfl

/-- The account is of the expansion that fills placeholders. -/
theorem expansion_account (blocks : List Block) (scope : Scope) :
    (account blocks scope).expansion = expand true blocks scope := by
  induction blocks using Marker.induction_on_parts generalizing scope with
  | nil => rw [account_nil, expand_nil]; rfl
  | loose block rest hl ih =>
    rw [account_loose hl, expand_loose hl, Account.expansion_cons, ih, ← Delivery.ofLoose_eq]
  | unclosed block rest marker hm ho hc =>
    rw [account_unclosed hm ho hc, expand_unclosed hm ho hc, Account.expansion_stopped]
    rfl
  | closed block body closer after marker hm ho hc ihb iha =>
    have hpart := Account.expansion_ofPart (account body) scope marker
    simp only [ihb] at hpart
    rw [account_closed hm ho hc, expand_closed hm ho hc]
    dsimp only
    rw [← hpart]
    split
    · next ha => rw [Account.expansion_stopped]; exact (if_pos ha).symm
    · next ha => rw [Account.expansion_append, iha]; exact (if_neg ha).symm

namespace Expansion.Account

theorem missing_tally_expansion (account : Account) : account.expansion.tally.missing =
    (account.delivered.map Delivery.unresolved).sum +
      (account.givenUp.map Delivery.unresolved).sum := by
  have hmap (deliveries : List Delivery) :
      (deliveries.map Delivery.tally).map Placeholder.Tally.missing =
        deliveries.map Delivery.unresolved := by
    rw [List.map_map]
    exact List.map_congr_left fun delivery _ ↦ delivery.missing_tally
  rw [expansion, Placeholder.Tally.missing_sum, hmap, List.map_append, List.sum_append]

/-- An expansion that runs to its end gives up nothing. -/
def Settled (account : Account) : Prop := account.aborted = false → account.givenUp = []

theorem settled_empty : Settled empty := fun _ ↦ rfl

theorem Settled.append {first rest : Account} (hf : Settled first) (ha : first.aborted = false)
    (hr : Settled rest) : Settled (first.append rest) := fun h ↦ by
  rw [Account.append, hf ha, hr h, List.append_nil]

theorem settled_forItems {account : Value → Account} (h : ∀ item, Settled (account item))
    (items : List Value) : Settled (forItems account items) := by
  induction items with
  | nil => exact settled_empty
  | cons item items ih =>
    rw [forItems]
    split
    · exact h item
    · next ha => exact (h item).append (by simpa using ha) ih

theorem settled_ofPart {account : Scope → Account} (h : ∀ scope, Settled (account scope))
    (scope : Scope) (marker : Marker) : Settled (ofPart account scope marker) := by
  cases marker with
  | ifThen condition =>
    rw [ofPart]
    split
    · exact h scope
    · exact settled_empty
  | forEach item source => exact settled_forItems (fun value ↦ h (scope.withItem item value)) _
  | endIf => exact settled_empty
  | endForEach => exact settled_empty

end Expansion.Account

theorem settled_account (blocks : List Block) (scope : Scope) :
    Account.Settled (account blocks scope) := by
  induction blocks using Marker.induction_on_parts generalizing scope with
  | nil => rw [account_nil]; exact Account.settled_empty
  | loose block rest hl ih => rw [account_loose hl]; exact ih scope
  | unclosed block rest marker hm ho hc =>
    rw [account_unclosed hm ho hc]
    exact fun h ↦ absurd h (by simp [Account.stopped])
  | closed block body closer after marker hm ho hc ihb iha =>
    rw [account_closed hm ho hc]
    dsimp only
    split
    · exact fun h ↦ absurd h (by simp [Account.stopped])
    · next ha =>
      exact (Account.settled_ofPart ihb scope marker).append (by simpa using ha) (iha scope)

/-! ### Where an account is stopped -/

namespace Expansion.Account

theorem empty_append (rest : Account) : empty.append rest = rest := rfl

theorem append_assoc (a b c : Account) : (a.append b).append c = a.append (b.append c) := by
  simp [append]

theorem cons_append (delivery : Delivery) (first rest : Account) :
    (first.cons delivery).append rest = (first.append rest).cons delivery := rfl

end Expansion.Account

section Stops

variable {scope : Scope} {blocks first : List Block}

theorem aborted_account (blocks : List Block) (scope : Scope) :
    (account blocks scope).aborted = (expand true blocks scope).aborted :=
  congrArg Expansion.aborted (expansion_account blocks scope)

theorem account_append (h : (account first scope).aborted = false) (rest : List Block) :
    account (first ++ rest) scope = (account first scope).append (account rest scope) := by
  induction first using Marker.induction_on_parts with
  | nil => rw [account_nil, Account.empty_append, List.nil_append]
  | loose block first hl ih =>
    rw [account_loose hl] at h
    rw [List.cons_append, account_loose hl, account_loose hl, ih h, Account.cons_append]
  | unclosed block first marker hm ho hc => simp [account_unclosed hm ho hc, Account.stopped] at h
  | closed block body closer after marker hm ho hc _ ih =>
    have hc' : marker.closer? (body ++ closer :: (after ++ rest)) = some body.length :=
      Marker.closerFrom?_replace hc _
    have he : block :: (body ++ closer :: after) ++ rest =
        block :: (body ++ closer :: (after ++ rest)) := by simp
    rw [account_closed hm ho hc] at h
    rw [he, account_closed hm ho hc', account_closed hm ho hc]
    dsimp only at h ⊢
    split
    · next ha => simp [ha, Account.stopped] at h
    · next ha =>
      rw [if_neg ha] at h
      rw [ih h, Account.append_assoc]

/-- What stops at once is delivered as written. -/
theorem Stops.exists_account_eq (h : Stops true scope blocks) :
    ∃ part, account blocks scope = .stopped blocks part := by
  cases h with
  | unclosed hm ho hc => exact ⟨_, account_unclosed hm ho hc⟩
  | @part _ _ body _ marker hm ho hc ha =>
    have hbody : (fun scope ↦ (account body scope).expansion) = expand true body :=
      funext (expansion_account body)
    have ha : (Account.ofPart (account body) scope marker).aborted = true := by
      rw [← ha, ← hbody, ← Account.expansion_ofPart]
      rfl
    exact ⟨_, by rw [account_closed hm ho hc]; exact if_pos ha⟩

/-- What is delivered is the account of a first part that runs to its end, and behind it what stops
at once as written; only for the latter is anything given up. -/
theorem exists_account_split (blocks : List Block) (scope : Scope) :
    ∃ done rest, blocks = done ++ rest ∧ (expand true done scope).aborted = false ∧
      (rest = [] ∨ Stops true scope rest) ∧
      (account blocks scope).delivered =
        (account done scope).delivered ++ rest.map .asWritten ∧
      (account blocks scope).givenUp = (account rest scope).givenUp := by
  obtain ⟨done, rest, rfl, hd, hr⟩ := exists_split true scope blocks
  have ha : (account done scope).aborted = false := by rwa [aborted_account]
  have hrest : (account rest scope).delivered = rest.map .asWritten := by
    rcases hr with rfl | hr
    · rw [account_nil]
      rfl
    · obtain ⟨part, he⟩ := hr.exists_account_eq
      rw [he]
      rfl
  refine ⟨done, rest, rfl, hd, hr, ?_, ?_⟩ <;> rw [account_append ha rest, Account.append]
  · rw [hrest]
  · rw [settled_account done scope ha, List.nil_append]

end Stops

namespace Processor

/-- The first expansion of a container delivers the paragraphs that its account says: those of a
part that it expands to its end, and behind it, as written, those at which it stops, if it does.
Only for these is anything given up. The number of unresolved placeholders in the report is that of
the delivered paragraphs, each counted as often as it is delivered, and that of what was given up;
so it is that of the delivered paragraphs just when nothing that was given up has an unresolved
placeholder, as when the expansion is not stopped. -/
theorem unresolved_eq_delivered_add_givenUp (processor : Processor) (model : Value)
    (container : Container) :
    let scope := Scope.outermost processor.rootName model
    let main := expand true container.blocks scope
    let report := (processor.processContainer scope container).2
    let accounted := account container.blocks scope
    main.blocks = accounted.delivered.map Delivery.block ∧
      (∃ done rest, container.blocks = done ++ rest ∧ (expand true done scope).aborted = false ∧
        (rest = [] ∨ Stops true scope rest) ∧
        accounted.delivered = (account done scope).delivered ++ rest.map .asWritten ∧
        accounted.givenUp = (account rest scope).givenUp) ∧
      (report.aborted = false → accounted.givenUp = []) ∧
      report.unresolved = (accounted.delivered.map Delivery.unresolved).sum +
        (accounted.givenUp.map Delivery.unresolved).sum ∧
      (report.unresolved = (accounted.delivered.map Delivery.unresolved).sum ↔
        ∀ delivery ∈ accounted.givenUp, delivery.unresolved = 0) := by
  intro scope main report accounted
  have he : accounted.expansion = main := expansion_account container.blocks scope
  have haborted : accounted.aborted = report.aborted := aborted_account container.blocks scope
  have hmissing : report.unresolved = (accounted.delivered.map Delivery.unresolved).sum +
      (accounted.givenUp.map Delivery.unresolved).sum := by
    rw [← accounted.missing_tally_expansion, he]
    rfl
  refine ⟨(congrArg Expansion.blocks he).symm, exists_account_split container.blocks scope,
    fun h ↦ ?_, hmissing, ?_⟩
  · exact settled_account container.blocks scope (haborted.trans h)
  · rw [hmissing, Nat.add_eq_left, List.sum_eq_zero_iff_forall_eq_nat, List.forall_mem_map]

/-- A rider in a part that is given up for the loop behind it stays as written, and yet it counts as
unresolved. -/
theorem unresolved_counts_givenUp_rider :
    let blocks : List Block := ["IF Loan.Jumbo", "\x7bLoan.Rider\x7d",
      "FOREACH party IN Loan.Parties", "ENDIF"].map .ofText
    let scope := Scope.outermost "Loan" (.object [("Jumbo", .bool true)])
    let report := (Processor.default.processContainer scope ⟨"body", blocks⟩).2
    (expand true blocks scope).blocks = blocks ∧
      (account blocks scope).delivered = blocks.map .asWritten ∧
      report.aborted = true ∧ report.unresolved = 1 ∧
      report.unresolved ≠ ((account blocks scope).delivered.map Delivery.unresolved).sum := by
  intro blocks scope report
  let rider : Block := .ofText "\x7bLoan.Rider\x7d"
  let loop : Block := .ofText "FOREACH party IN Loan.Parties"
  have hif : Marker.ofBlock? (.ofText "IF Loan.Jumbo") = some (.ifThen "Loan.Jumbo") := by decide
  have hrider : Marker.ofBlock? rider = none := by decide
  have hloop : Marker.ofBlock? loop = some (.forEach "party" "Loan.Parties") := by decide
  have hjumbo : Condition.Token.scan? (Condition.strictSpelling scope "Loan.Jumbo") =
      some [.path ["Loan", "Jumbo"]] := by decide +kernel
  have hholds : Condition.holds scope "Loan.Jumbo" = true := Condition.holds_path hjumbo rfl
  let part : Account := ⟨[.filled scope rider, .asWritten loop], true, []⟩
  have hpart : account [rider, loop] scope = part := by
    rw [account_loose (Marker.opens_of_ofBlock?_none hrider),
      account_unclosed hloop rfl (by decide)]
    simp [Delivery.ofLoose, hrider, Account.cons, Account.stopped, Account.empty, part]
  have hall : account blocks scope = .stopped blocks part := by
    change account (.ofText "IF Loan.Jumbo" :: ([rider, loop] ++ .ofText "ENDIF" :: [])) scope = _
    rw [account_closed hif rfl (by decide)]
    simp only [Account.ofPart, hholds, hpart, if_true]
    rfl
  have hmain : expand true blocks scope = .stopped blocks part.expansion.tally := by
    rw [← expansion_account, hall, Account.expansion_stopped]
  have hrest : part.expansion.tally.missing = 1 := by
    have hkeys : rider.keys = ["Loan.Rider"] := rfl
    have hmissing : scope.resolve "Loan.Rider" = .missing := rfl
    have hone : (Delivery.filled scope rider).unresolved = 1 := by
      rw [Delivery.unresolved, hkeys, List.countP_singleton, hmissing]
      rfl
    simp [Account.missing_tally_expansion, part, hone]
  have hreport : report.unresolved = 1 := by
    change (expand true blocks scope).tally.missing = 1
    rw [hmain]
    exact hrest
  have haborted : report.aborted = true := congrArg Expansion.aborted hmain
  have hwritten : (account blocks scope).delivered = blocks.map .asWritten := by rw [hall]; rfl
  refine ⟨by rw [hmain]; rfl, hwritten, haborted, hreport, ?_⟩
  rw [hreport, hwritten]
  exact Nat.one_ne_zero

end Processor

end LoanClosing
