import LoanClosing.Proofs.Condition.Parser
import LoanClosing.Proofs.Expansion.Remainder

/-!
# Up to the first defect

Expansion takes a list apart at any place that it gets to: what is in front is expanded, then what
is behind, and both are filled independently. It stops at the first opener that has no closer or
whose part is stopped in turn, be it in the body of a condition that holds or for any item of a
loop, at any depth. Everything that was left in front of that opener stays, and nothing of its part
does: the list goes on as written.
-/

namespace LoanClosing

/-- What stops the part that an opener opens: its condition holds and the body is stopped, or the
body is stopped for an item, and for no item before. -/
def PartStops (fills : Bool) (scope : Scope) (body : List Block) : Marker → Prop
  | .ifThen condition =>
    Condition.holds scope condition = true ∧ (expand fills body scope).aborted = true
  | .forEach item source =>
    ∃ before value after, scope.resolveItems source = before ++ value :: after ∧
      (∀ earlier ∈ before, (expand fills body (scope.withItem item earlier)).aborted = false) ∧
      (expand fills body (scope.withItem item value)).aborted = true
  | .endIf | .endForEach => False

namespace Expansion

/-- A repeated part is stopped at the first item for which it is. -/
theorem aborted_forItems_iff (expand : Value → Expansion) (items : List Value) :
    (forItems expand items).aborted = true ↔
      ∃ before value after, items = before ++ value :: after ∧
        (∀ earlier ∈ before, (expand earlier).aborted = false) ∧
        (expand value).aborted = true := by
  induction items with
  | nil => simp [forItems]
  | cons item items ih =>
    rw [forItems]
    cases ha : (expand item).aborted with
    | true =>
      simp only [ha, if_true, true_iff]
      exact ⟨[], item, items, rfl, List.forall_mem_nil _, ha⟩
    | false =>
      simp only [Bool.false_eq_true, if_false, aborted_append, ih]
      constructor
      · rintro ⟨before, value, after, rfl, hb, hv⟩
        refine ⟨item :: before, value, after, rfl, ?_, hv⟩
        rw [List.forall_mem_cons]
        exact ⟨ha, hb⟩
      · rintro ⟨before, value, after, he, hb, hv⟩
        cases before with
        | nil =>
          obtain ⟨rfl, -⟩ := List.cons.inj he
          rw [ha] at hv
          cases hv
        | cons earlier before =>
          obtain ⟨rfl, rfl⟩ := List.cons.inj he
          exact ⟨before, value, after, rfl, (List.forall_mem_cons.mp hb).2, hv⟩

/-- What becomes of a part is stopped for one of the reasons that a part has. -/
theorem aborted_ofPart_iff (fills : Bool) (scope : Scope) (body : List Block) (marker : Marker) :
    (ofPart (expand fills body) scope marker).aborted = true ↔
      PartStops fills scope body marker := by
  cases marker with
  | ifThen condition =>
    rw [ofPart, PartStops]
    cases Condition.holds scope condition <;> simp
  | forEach item source => exact aborted_forItems_iff _ _
  | endIf | endForEach => simp [ofPart, PartStops]

end Expansion

/-- No longer beginning of a list is expanded to its end than the one behind which it stops. -/
theorem Stops.prefix_of_prefix {fills : Bool} {scope : Scope} {done defect front : List Block}
    (hs : Stops fills scope defect) (hd : (expand fills done scope).aborted = false)
    (hp : front <+: done ++ defect) (hf : (expand fills front scope).aborted = false) :
    front <+: done := by
  obtain ⟨rest, he⟩ := hp
  obtain ⟨between, rfl, -⟩ | ⟨between, rfl, rfl⟩ := List.append_eq_append_iff.mp he
  · exact List.prefix_append ..
  · rw [expand_append hd, Expansion.aborted_append] at hf
    obtain rfl := hs.eq_nil_of_append hf
    simp

/-- What is expanded to its end and what follows it are expanded one after the other. What is not
expanded to its end falls apart into the longest beginning that is, and an opener with all that
follows it, which stay as written: the opener has no closer there, or its part is stopped, in the
body of a condition that holds or for the first item of a loop for which it is. -/
theorem expand_toFirstDefect (fills : Bool) (scope : Scope) (first : List Block) :
    ((expand fills first scope).aborted = false →
      ∀ rest, (expand fills (first ++ rest) scope).blocks =
          (expand fills first scope).blocks ++ (expand fills rest scope).blocks ∧
        (expand fills (first ++ rest) scope).aborted = (expand fills rest scope).aborted ∧
        (expand fills (first ++ rest) scope).tally =
          (expand fills first scope).tally.add (expand fills rest scope).tally) ∧
    ((expand fills first scope).aborted = true →
      ∃ done opener rest marker, first = done ++ opener :: rest ∧
        (expand fills done scope).aborted = false ∧
        (∀ front, front <+: first → (expand fills front scope).aborted = false →
          front <+: done) ∧
        Marker.ofBlock? opener = some marker ∧ marker.isOpening = true ∧
        (marker.closer? rest = none ∨
          ∃ body closer after, rest = body ++ closer :: after ∧
            marker.closer? rest = some body.length ∧ PartStops fills scope body marker) ∧
        (expand fills first scope).blocks =
          (expand fills done scope).blocks ++ opener :: rest) := by
  refine ⟨fun h rest ↦ ?_, fun h ↦ ?_⟩
  · rw [expand_append h]
    exact ⟨rfl, rfl, rfl⟩
  · obtain ⟨done, defect, rfl, hd, hs⟩ := exists_stops h
    have hlongest : ∀ front, front <+: done ++ defect →
        (expand fills front scope).aborted = false → front <+: done :=
      fun front hp hf ↦ hs.prefix_of_prefix hd hp hf
    have hblocks := blocks_expand_append_of_stops hd (.inr hs)
    cases hs with
    | unclosed hm ho hc =>
      exact ⟨done, _, _, _, rfl, hd, hlongest, hm, ho, .inl hc, hblocks⟩
    | part hm ho hc ha =>
      have hpart := (Expansion.aborted_ofPart_iff ..).mp ha
      exact ⟨done, _, _, _, rfl, hd, hlongest, hm, ho, .inr ⟨_, _, _, rfl, hc, hpart⟩, hblocks⟩

/-- A loop whose second item meets an opener without its closer: what the first item left is taken
back, and the whole loop stays as written behind the heading. -/
theorem expand_toFirstDefect_signers :
    let heading : Block := .ofText "Signers"
    let loop : List Block := ["FOREACH party IN Loan.Parties", "IF party.Signs",
      "FOREACH page IN party.Pages", "ENDIF", "ENDFOREACH", "ENDFOREACH"].map .ofText
    let party (signs : Bool) : Value := .object [("Signs", .bool signs)]
    let scope := Scope.outermost "Loan" (.object [("Parties", .list [party false, party true])])
    (expand true [heading] scope).aborted = false ∧
      (expand true ([heading] ++ loop) scope).aborted = true ∧
      (expand true ([heading] ++ loop) scope).blocks = heading :: loop := by
  intro heading loop party scope
  have hloop : Marker.ofBlock? (.ofText "FOREACH party IN Loan.Parties") =
      some (.forEach "party" "Loan.Parties") := by decide
  have hif : Marker.ofBlock? (.ofText "IF party.Signs") = some (.ifThen "party.Signs") := by decide
  have hpages : Marker.ofBlock? (.ofText "FOREACH page IN party.Pages") =
      some (.forEach "page" "party.Pages") := by decide
  have hend : Marker.opens (.ofText "ENDFOREACH") = false := by decide
  let part : List Block := [.ofText "FOREACH page IN party.Pages"]
  let body : List Block := .ofText "IF party.Signs" ::
    (part ++ .ofText "ENDIF" :: [.ofText "ENDFOREACH"])
  have hclosed : (Marker.ifThen "party.Signs").closer?
      (part ++ .ofText "ENDIF" :: [.ofText "ENDFOREACH"]) = some part.length := by decide
  have hsigns {flag : Bool} : Condition.Token.scan? (Condition.strictSpelling
      (scope.withItem "party" (party flag)) "party.Signs") = some [.path ["party", "Signs"]] := by
    cases flag <;> decide +kernel
  -- The first party does not sign: the inner opener is left out, and its closer stays.
  have hfirst : (expand true body (scope.withItem "party" (party false))).aborted = false := by
    have hfalse : Condition.holds (scope.withItem "party" (party false)) "party.Signs" = false :=
      Condition.holds_path hsigns rfl
    rw [expand_closed hif rfl hclosed]
    simp [Expansion.ofPart, hfalse, expand_loose hend]
  have hsecond : (expand true body (scope.withItem "party" (party true))).aborted = true := by
    have htrue : Condition.holds (scope.withItem "party" (party true)) "party.Signs" = true :=
      Condition.holds_path hsigns rfl
    have hpart : (expand true part (scope.withItem "party" (party true))).aborted = true := by
      rw [expand_unclosed hpages rfl (by decide), Expansion.aborted_stopped]
    rw [expand_closed hif rfl hclosed]
    simp [Expansion.ofPart, htrue, hpart]
  have hs : Stops true scope loop := by
    have hc : (Marker.forEach "party" "Loan.Parties").closer?
        (body ++ .ofText "ENDFOREACH" :: []) = some body.length := by decide
    refine Stops.part hloop rfl hc ((Expansion.aborted_ofPart_iff ..).mpr ?_)
    exact ⟨[party false], party true, [], rfl, by simpa using hfirst, hsecond⟩
  obtain ⟨hb, hd⟩ := expand_plain (show Marker.ofBlock? heading = none by decide) scope
  have ha : (expand true ([heading] ++ loop) scope).aborted = true := hs.aborted_append hd
  obtain ⟨happend, -⟩ := expand_toFirstDefect true scope [heading]
  obtain ⟨hblocks, -, -⟩ := happend hd loop
  have hf : heading.fill scope = heading := rfl
  obtain ⟨tally, hstopped⟩ := hs.exists_expand_eq
  exact ⟨hd, ha, by rw [hblocks, hb, hf, hstopped]; rfl⟩

end LoanClosing
