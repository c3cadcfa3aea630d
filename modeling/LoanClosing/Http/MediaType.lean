import LoanClosing.Text.Ascii

/-!
# Media types

The kind of a message body: a type, a subtype with an optional suffix behind a plus sign, and
parameters, which are checked and left out.
-/

namespace LoanClosing

/-- A media type. -/
structure MediaType where
  type : String
  subtype : String
  suffix : Option String
  deriving DecidableEq, Repr

namespace MediaType

/-- A character of a name. -/
def isTokenChar (c : Char) : Bool := c.isAlphanum || "!#$%&'*+-.^_`|~".toList.contains c

/-- A character of a quoted parameter. -/
def isQuotable (c : Char) : Bool := 31 < c.toNat && c.toNat != 127

/-- Where the reading of parameters stands. -/
inductive Progress where
  | beforeName
  | name
  | beforeValue
  | value
  /-- After an opening quote: a quote that follows at once closes nothing. -/
  | opened
  | quoted
  | closed
  deriving DecidableEq, Repr

namespace Progress

/-- Takes a character of parameters. -/
def step (progress : Progress) (c : Char) : Option Progress :=
  match progress with
  | .beforeName => if c = ' ' then some .beforeName else if isTokenChar c then some .name else none
  | .name => if isTokenChar c then some .name else if c = '=' then some .beforeValue else none
  | .beforeValue =>
    if c = '\x22' then some .opened else if isTokenChar c then some .value else none
  | .value => if isTokenChar c then some .value else if c = ';' then some .beforeName else none
  | .opened => if isQuotable c then some .quoted else none
  | .quoted => if c = '\x22' then some .closed else if isQuotable c then some .quoted else none
  | .closed => if c = ' ' then some .closed else if c = ';' then some .beforeName else none

/-- Whether parameters may end here. -/
def mayEnd : Progress → Bool
  | .beforeName | .beforeValue | .value | .closed => true
  | .name | .opened | .quoted => false

end Progress

/-- Whether a text holds parameters. -/
def areParameters (cs : List Char) : Bool :=
  match cs.foldlM Progress.step .beforeName with
  | some progress => progress.mayEnd
  | none => false

/-- The subtype and the suffix behind its last plus sign; a plus sign in front is part of the
subtype. -/
def splitSuffix (cs : List Char) : List Char × Option (List Char) :=
  let suffix := (cs.reverse.takeWhile (· != '+')).reverse
  let front := cs.take (cs.length - suffix.length - 1)
  if front.isEmpty then (cs, none) else (front, some suffix)

/-- Reads a media type. -/
def read? (s : String) : Option MediaType :=
  let cs := s.toList
  let type := cs.takeWhile isTokenChar
  match cs.drop type.length with
  | '/' :: rest =>
    let subtype := rest.takeWhile isTokenChar
    let made :=
      let (name, suffix) := splitSuffix subtype
      some ⟨String.ofList type, String.ofList name, suffix.map String.ofList⟩
    if type.isEmpty then none
    else
      match rest.drop subtype.length with
      | [] => made
      | ';' :: parameters =>
        if !subtype.isEmpty && areParameters parameters && cs.all (·.toNat < 128) then made
        else none
      | _ => none
  | _ => none

/-- Whether a body of this type is JSON. -/
def isJson (mediaType : MediaType) : Bool :=
  Text.sameFolded mediaType.type "application" &&
    (Text.sameFolded mediaType.subtype "json" ||
      (mediaType.suffix.elim false fun suffix ↦ Text.sameFolded suffix "json"))

end MediaType

end LoanClosing
