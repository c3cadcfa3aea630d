import LoanClosing.Document.Stored
import LoanClosing.Merging.Rendering
import LoanClosing.Proofs.Expansion.Origin
import LoanClosing.Proofs.Json.Record

/-!
# Documents stored and read again

A document that was read from stored bytes is read again from what it is stored as, and from what is
rendered of it. The two sides are no mirror images: a formatting that is null is not written, and
what is left out has a default. What carries the argument is a property of documents that reading
ensures: every formatting has its objects in byte order and is not nested too deep where it stands.
-/

namespace LoanClosing

open Json Json.Decode

/-- Whether a formatting at a level of nesting can be written and read again. -/
def FormatFits (level : Nat) (format : Json) : Prop := Json.Fits level format ∧ Json.Sorted format

variable {source : Source} {level : Nat} {format : Json}

theorem formatFits_null : FormatFits level .null := ⟨.null, .null⟩

/-! ### The member for a formatting -/

/-- A formatting is read back from its member, or from its absence. -/
theorem reads_formatMember (h : FormatFits level format) :
    Reads (defaulted "format" json .null).only source (Node.ofMembers (formatMember format))
      format := by
  have hread : json source (.ofJson format) = .ok format := json_ofJson h.2
  cases format with
  | null => exact reads_only_nil rfl
  | _ => exact reads_only hread

theorem lacks_formatMember {name : String} (hn : name ≠ "format") :
    Lacks name (Node.ofMembers (formatMember format)) := by
  cases format with
  | null => exact .nil
  | _ => exact .cons hn.symm .nil

theorem fits_formatMember (h : FormatFits level format) :
    ∀ member ∈ formatMember format, Json.Fits level member.2 := by
  cases format with
  | null => exact nofun
  | _ => exact List.forall_mem_singleton.2 h.1

/-- Every formatting that is read can be written and read again. -/
theorem ensures_format :
    FieldEnsures (defaulted "format" json .null) source level (FormatFits level) :=
  ensures_defaulted ensures_json formatFits_null

/-! ### Pieces of text -/

namespace Leaf

/-- Whether a piece of text at a level of nesting can be written and read again. -/
def Fits (level : Nat) (leaf : Leaf) : Prop := FormatFits (level + 1) leaf.format

theorem ensures_decode : Ensures decode source level (Fits level) := by
  intro node leaf hb hd
  obtain ⟨⟨text, format⟩, hread, hd⟩ := exists_of_bind_eq_ok hd
  obtain rfl := Except.ok.inj hd
  exact (((ensures_required (.trivial _ source (level + 1))).and
    ensures_format.only).record "Leaf" node _ hb hread).2.2

theorem decode_ofJson {leaf : Leaf} (h : leaf.Fits level) :
    decode source (.ofJson leaf.toJson) = .ok leaf := by
  have htext : (required "text" Decode.text).decode source (.text (.ok leaf.text)) =
      .ok leaf.text := rfl
  have hreads := (reads_formatMember h).and htext (lacks_formatMember (by decide))
  rw [decode, toJson, Node.ofJson, Node.ofMembers]
  exact congrArg (· >>= _) (hreads.record "Leaf")

theorem fits_toJson {leaf : Leaf} (h : leaf.Fits level) (hl : level < Node.maxDepth) :
    Json.Fits level leaf.toJson :=
  .object hl (List.forall_mem_cons.2 ⟨.text, fits_formatMember h⟩)

end Leaf

/-! ### Paragraphs, containers and documents -/

namespace Block

/-- Whether the formattings of a paragraph at a level of nesting can be written and read again. -/
def Fits (level : Nat) (block : Block) : Prop :=
  (∀ leaf ∈ block.leaves, leaf.Fits (level + 2)) ∧ FormatFits (level + 1) block.format

theorem ensures_decode : Ensures decode source level (Fits level) := by
  intro node block hb hd
  obtain ⟨⟨leaves, format⟩, hread, hd⟩ := exists_of_bind_eq_ok hd
  obtain rfl := Except.ok.inj hd
  exact (((ensures_required (ensures_list Leaf.ensures_decode)).and
    ensures_format.only).record "Block" node _ hb hread).2

theorem decode_ofJson {block : Block} (h : block.Fits level) :
    decode source (.ofJson block.toJson) = .ok block := by
  have hleaves : (required "leaves" (list Leaf.decode)).decode source
      (.ofJson (.array (block.leaves.map Leaf.toJson))) = .ok block.leaves :=
    list_ofJson fun leaf hl ↦ Leaf.decode_ofJson (h.1 leaf hl)
  have hreads := (reads_formatMember h.2).and hleaves (lacks_formatMember (by decide))
  rw [decode, toJson, Node.ofJson, Node.ofMembers]
  exact congrArg (· >>= _) (hreads.record "Block")

theorem fits_toJson {block : Block} (h : block.Fits level) (hl : level + 2 < Node.maxDepth) :
    Json.Fits level block.toJson :=
  .object (by omega) (List.forall_mem_cons.2
    ⟨.array (by omega) (List.forall_mem_map.2 fun leaf hleaf ↦
      Leaf.fits_toJson (h.1 leaf hleaf) hl), fits_formatMember h.2⟩)

end Block

namespace Container

/-- Whether the formattings in a container at a level of nesting can be written and read again. -/
def Fits (level : Nat) (container : Container) : Prop :=
  ∀ block ∈ container.blocks, block.Fits (level + 2)

theorem ensures_decode : Ensures decode source level (Fits level) := by
  intro node container hb hd
  obtain ⟨⟨name, blocks⟩, hread, hd⟩ := exists_of_bind_eq_ok hd
  obtain rfl := Except.ok.inj hd
  exact (((ensures_required (.trivial _ source (level + 1))).and
    (ensures_defaulted (ensures_list Block.ensures_decode) (List.forall_mem_nil _)).only).record
      "Container" node _ hb hread).2.2

theorem decode_ofJson {container : Container} (h : container.Fits level) :
    decode source (.ofJson container.toJson) = .ok container := by
  have hname : (required "name" Decode.text).decode source (.text (.ok container.name)) =
      .ok container.name := rfl
  have hblocks : (defaulted "blocks" (list Block.decode) []).decode source
      (.ofJson (.array (container.blocks.map Block.toJson))) = .ok container.blocks :=
    list_ofJson fun block hb ↦ Block.decode_ofJson (h block hb)
  have hreads := (reads_only hblocks).and hname (.cons (by decide) .nil)
  exact congrArg (· >>= _) (hreads.record "Container")

theorem fits_toJson {container : Container} (h : container.Fits level)
    (hl : level + 4 < Node.maxDepth) : Json.Fits level container.toJson :=
  .object (by omega) (List.forall_mem_cons.2 ⟨.text, List.forall_mem_singleton.2
    (.array (by omega) (List.forall_mem_map.2 fun block hb ↦
      Block.fits_toJson (h block hb) (by omega)))⟩)

end Container

namespace Document

/-- Whether the formattings in a document can be written and read again. -/
def Fits (document : Document) : Prop := ∀ container ∈ document.containers, container.Fits 2

theorem ensures_decode : Ensures decode source 0 Fits := by
  intro node document hb hd
  obtain ⟨⟨name, containers⟩, hread, hd⟩ := exists_of_bind_eq_ok hd
  obtain rfl := Except.ok.inj hd
  exact (((ensures_defaulted (.trivial _ source 1) True.intro).and
    (ensures_required (ensures_list Container.ensures_decode)).only).record
      "TemplateDocument" node _ hb hread).2.2

theorem decode_ofJson {document : Document} (h : document.Fits) :
    decode source (.ofJson document.toJson) = .ok document := by
  have hname : (defaulted "name" Decode.text "").decode source (.text (.ok document.name)) =
      .ok document.name := rfl
  have hcontainers : (required "containers" (list Container.decode)).decode source
      (.ofJson (.array (document.containers.map Container.toJson))) = .ok document.containers :=
    list_ofJson fun container hc ↦ Container.decode_ofJson (h container hc)
  have hreads :=
    (reads_only hcontainers).and hname (.cons (by decide) .nil)
  exact congrArg (· >>= _) (hreads.record "TemplateDocument")

theorem fits_toJson {document : Document} (h : document.Fits) : Json.Fits 0 document.toJson :=
  .object (by decide) (List.forall_mem_cons.2 ⟨.text, List.forall_mem_singleton.2
    (.array (by decide) (List.forall_mem_map.2 fun container hc ↦
      Container.fits_toJson (h container hc) (by decide)))⟩)

/-! ### Stored and read again -/

/-- Whatever is read from stored bytes can be written and read again, and has a container. -/
theorem fits_of_ofBytes {bytes : ByteArray} {document : Document}
    (h : ofBytes bytes = .ok document) : document.Fits ∧ document.containers.isEmpty = false := by
  unfold ofBytes decodeBytes decodeTree at h
  split at h
  · cases h
  · next read hd =>
    split at h
    · cases h
    · next hne =>
      obtain rfl := Except.ok.inj h
      obtain ⟨other, hread, hd⟩ := exists_of_bind_eq_ok hd
      split at hd
      · cases hd
      · obtain rfl := Except.ok.inj hd
        exact ⟨ensures_decode _ _ (Node.bounded_ofRest _) hread, Bool.eq_false_iff.2 hne⟩

/-- A text that is read as a document with a container is read as that stored document. -/
theorem ofBytes_toUTF8 {s : String} {document : Document}
    (h : decodeString decode s = .ok document) (hc : document.containers.isEmpty = false) :
    ofBytes s.toUTF8 = .ok document := by
  unfold ofBytes
  rw [decodeBytes_toUTF8, h]
  exact if_neg (Bool.eq_false_iff.1 hc)

/-- A document without containers is refused as such when it is read again. -/
theorem ofBytes_stored_of_containers_eq_nil {document : Document} (h : document.containers = []) :
    ofBytes document.stored = .error .empty := by
  have hfits : document.Fits := fun container hc ↦ nomatch h ▸ hc
  have hnumbers : document.toJson.numbers = [] := by
    rw [toJson, h]
    rfl
  have hread : decodeString decode document.toJson.compact = .ok document :=
    ((fits_toJson hfits).decodeString_compact fun x hx ↦ nomatch hnumbers ▸ hx).trans
      (decode_ofJson hfits)
  unfold ofBytes stored
  rw [decodeBytes_toUTF8, hread]
  exact if_pos (List.isEmpty_iff.2 h)

/-- A document that can be written and read again survives both of its written forms, if the numbers
with a fraction or an exponent in its formattings read back. -/
theorem Fits.decodeString_toJson {document : Document} (h : document.Fits)
    (hf : ∀ x, .float x ∈ document.toJson.numbers → (Number.float x).ReadsBack) :
    decodeString decode document.toJson.compact = .ok document ∧
      decodeString decode document.prettyText = .ok document := by
  have hjson := fits_toJson h
  exact ⟨(hjson.decodeString_compact hf).trans (decode_ofJson h),
    (hjson.decodeString_pretty hf).trans (decode_ofJson h)⟩

end Document

/-! ### Merged documents -/

/-- A paragraph with the same formatting can be written and read again as well. -/
theorem Block.Fits.of_sameFormat {block other : Block} (h : other.Fits level)
    (hs : block.SameFormat other) : block.Fits level := by
  obtain ⟨hformat, -, hleaves⟩ := hs
  refine ⟨fun leaf hl ↦ ?_, hformat ▸ h.2⟩
  have hmem : leaf.format ∈ other.leaves.map (·.format) :=
    hleaves ▸ List.mem_map_of_mem hl
  obtain ⟨source, hsource, he⟩ := List.mem_map.1 hmem
  have hfits : FormatFits (level + 2 + 1) source.format := h.1 source hsource
  rwa [he] at hfits

namespace Processor

/-- Processing keeps the formattings, so that they can still be written and read again. -/
theorem fits_processDocument (processor : Processor) {document : Document} (model : Value)
    (h : document.Fits) : (processor.processDocument document model).1.Fits := by
  intro container hc block hb
  obtain ⟨⟨processed, report⟩, hr, rfl⟩ := List.mem_map.1 hc
  obtain ⟨source, hsource, hp⟩ := List.mem_map.1 hr
  obtain rfl := congrArg Prod.fst hp
  -- A paragraph left alone stands in the template; any other is filled from one that does.
  cases comesFrom_expand true source.blocks _ block (mem_expand_of_mem_processContainer hb) with
  | inl hin => exact h source hsource block hin.1
  | inr hfrom =>
    obtain ⟨-, origin, ho, -, inner, -, rfl⟩ := hfrom
    exact (h source hsource origin ho).of_sameFormat (Block.sameFormat_fill inner origin)

/-- Processing keeps the number of containers. -/
theorem isEmpty_processDocument (processor : Processor) (document : Document) (model : Value) :
    (processor.processDocument document model).1.containers.isEmpty =
      document.containers.isEmpty := by
  simp only [processDocument, process, List.isEmpty_map]

end Processor

/-! ### Documents survive being stored -/

namespace Document

/-- A document that was read from stored bytes is read again from what it is stored as and from what
is rendered of it, and so is every merge of it; a document without containers is refused as such
when it is read again. Numbers with a fraction or an exponent in formattings are supposed to read
back. -/
theorem ofBytes_stored :
    (∀ bytes document, ofBytes bytes = .ok document →
      (∀ x, .float x ∈ document.toJson.numbers → (Number.float x).ReadsBack) →
        ofBytes document.stored = .ok document ∧
        ∃ output, Renderer.json document = .ok output ∧ ofBytes output = .ok document) ∧
    (∀ bytes document, ofBytes bytes = .ok document → ∀ (processor : Processor) model,
      let merged := (processor.processDocument document model).1
      (∀ x, .float x ∈ merged.toJson.numbers → (Number.float x).ReadsBack) →
        ∃ output, merge processor Renderer.json document model = .ok output ∧
          ofBytes output = .ok merged ∧ ofBytes merged.stored = .ok merged) ∧
    ∀ document : Document, document.containers = [] →
      ofBytes document.stored = .error .empty := by
  refine ⟨fun bytes document h hf ↦ ?_, fun bytes document h processor model hf ↦ ?_,
    fun _ ↦ ofBytes_stored_of_containers_eq_nil⟩
  · have ⟨hfits, hc⟩ := fits_of_ofBytes h
    have ⟨hstored, hpretty⟩ := hfits.decodeString_toJson hf
    exact ⟨ofBytes_toUTF8 hstored hc, _, rfl, ofBytes_toUTF8 hpretty hc⟩
  · have ⟨hfits, hc⟩ := fits_of_ofBytes h
    have ⟨hstored, hpretty⟩ :=
      (processor.fits_processDocument model hfits).decodeString_toJson hf
    have hmerged := (processor.isEmpty_processDocument document model).trans hc
    exact ⟨_, rfl, ofBytes_toUTF8 hpretty hmerged, ofBytes_toUTF8 hstored hmerged⟩

/-- The bytes of a template as another program may have written them: fields in another order, by
place or left out, a character given by number, blanks between the tokens. -/
def letterBytes : ByteArray :=
  ("\x7b\x22containers\x22: [\x7b\x22blocks\x22: [[[[\x22D\\u0065ar \x7bLoan.Name\x7d\x22, " ++
    "\x7b\x22size\x22: 15e-1, \x22bold\x22: [true, -7]\x7d]]]], " ++
    "\x22name\x22: \x22body\x22\x7d]\x7d").toUTF8

/-- A template with a paragraph of one piece of text. -/
def letter (text : String) : Document :=
  ⟨"", [⟨"body", [⟨[⟨text, .object [("bold", .array [.bool true, .int (-7)]),
    ("size", .number (.float ⟨false, 3 * 2 ^ 51, -52⟩))]⟩], .null⟩]⟩]⟩

theorem readsBack_letter (text : String) :
    ∀ x, .float x ∈ (letter text).toJson.numbers → (Number.float x).ReadsBack := by
  have hn : (letter text).toJson.numbers =
      [.integer (-7), .float ⟨false, 3 * 2 ^ 51, -52⟩] := rfl
  have hr : (Number.float ⟨false, 3 * 2 ^ 51, -52⟩).ReadsBack := by
    unfold Number.ReadsBack
    decide +kernel
  intro x hx
  rw [hn] at hx
  obtain rfl : x = ⟨false, 3 * 2 ^ 51, -52⟩ := by simpa using hx
  exact hr

theorem ofBytes_stored_letter :
    ofBytes letterBytes = .ok (letter "Dear \x7bLoan.Name\x7d") ∧
    ofBytes (letter "Dear \x7bLoan.Name\x7d").stored =
      .ok (letter "Dear \x7bLoan.Name\x7d") ∧
    (Processor.default.processDocument (letter "Dear \x7bLoan.Name\x7d")
      (.object [("Name", .text "Ann \x22A\x22")])).1 = letter "Dear Ann \x22A\x22" ∧
    ofBytes (letter "Dear Ann \x22A\x22").stored = .ok (letter "Dear Ann \x22A\x22") ∧
    ofBytes (stored ⟨"blank", []⟩) = .error .empty := by
  have hread : ofBytes letterBytes = .ok (letter "Dear \x7bLoan.Name\x7d") :=
    ofBytes_toUTF8 (by decide +kernel) (by decide +kernel)
  have hmerged : (Processor.default.processDocument (letter "Dear \x7bLoan.Name\x7d")
      (.object [("Name", .text "Ann \x22A\x22")])).1 = letter "Dear Ann \x22A\x22" := by
    decide +kernel
  obtain ⟨_, _, _, hstored⟩ := ofBytes_stored.2.1 letterBytes _ hread .default
    (.object [("Name", .text "Ann \x22A\x22")]) (hmerged ▸ readsBack_letter _)
  exact ⟨hread, (ofBytes_stored.1 letterBytes _ hread (readsBack_letter _)).1, hmerged,
    hmerged ▸ hstored, ofBytes_stored.2.2 ⟨"blank", []⟩ rfl⟩

end Document

end LoanClosing
