import Reactor.Yaml.Token

/-!
# Reading YAML

A document is a scalar, a sequence or a mapping.  What is read is given as a JSON value.  A name may
be given to a value with an anchor, and the value used again with a reference.
-/

namespace Reactor.Yaml

/-! ### Scalars -/

def integer? (text : List Char) : Option Int :=
  (Decimal.integer? text).filter Decimal.fitsSigned

def inBase? (base : Nat) (digits : List Char) : Option Int :=
  let values := digits.map Json.hexDigit?
  let value : Nat := values.foldl (fun total value => total * base + value.getD 0) 0
  if !digits.isEmpty && values.all (fun value => (value.getD base) < base) then
    some (value : Int) |>.filter Decimal.fitsSigned
  else none

def plainInteger? (text : List Char) : Option Int :=
  match text with
  | '0' :: 'x' :: digits => inBase? 16 digits
  | '0' :: 'o' :: digits => inBase? 8 digits
  | '+' :: rest => integer? rest
  | _ => integer? text

def isSpecialFloat (text : String) : Bool :=
  [".inf", ".Inf", ".INF", "+.inf", "+.Inf", "+.INF", "-.inf", "-.Inf", "-.INF", ".nan", ".NAN"].contains
    text

/-- The value of a float.  Special floats have none. -/
def float? (text : String) : Option Json :=
  (Decimal.read? text.toList).map .float

def ofPlain? (text : String) : Option Json :=
  match plainInteger? text.toList with
  | some value => some (.int value)
  | none =>
    match text with
    | "~" | "null" => some .null
    | "true" => some (.bool true)
    | "false" => some (.bool false)
    | _ =>
      if isSpecialFloat text then none
      else some ((float? text).getD (.str text))

/-- The value of a plain scalar with a tag.  A tag that does not fit leaves nothing. -/
def ofTagged? (tag text : String) : Option Json :=
  match tag with
  | "!!bool" =>
    match text with
    | "true" => some (.bool true)
    | "false" => some (.bool false)
    | _ => some .null
  | "!!int" => some (((integer? text.toList).map Json.int).getD .null)
  | "!!float" => if isSpecialFloat text then none else some ((float? text).getD .null)
  | "!!null" => some .null
  | _ => some (.str text)

def scalarValue? (tag : Option String) (isPlain : Bool) (text : String) : Option Json :=
  match isPlain, tag with
  | false, _ => some (.str text)
  | true, some tag => ofTagged? tag text
  | true, none => ofPlain? text

def keyName? : Json → Option String
  | .str text => some text
  | .int value => some (toString value)
  | _ => none

/-! ### Nodes -/

abbrev Anchors := List (String × Json)

abbrev NodeReader (α : Type) := Anchors → List Token → Option (α × Anchors × List Token)

/-- What stands before a value: a name for it and a tag. -/
structure Properties where
  anchor : Option String := none
  tag : Option String := none
  deriving DecidableEq, Repr, Inhabited

def properties : List Token → Properties × List Token
  | .anchor name :: .tag tag :: rest => (⟨name, tag⟩, rest)
  | .tag tag :: .anchor name :: rest => (⟨name, tag⟩, rest)
  | .anchor name :: rest => (⟨name, none⟩, rest)
  | .tag tag :: rest => (⟨none, tag⟩, rest)
  | tokens => ({}, tokens)

/-- Whether nothing was written where a key or a value is expected in a mapping. -/
def isMissing : List Token → Bool
  | .key :: _ | .value :: _ | .blockEnd :: _ => true
  | _ => false

/-- Whether nothing was written where a value is expected in brackets. -/
def isFlowMissing : List Token → Bool
  | .value :: _ | .flowEntry :: _ | .flowMappingEnd :: _ | .flowSequenceEnd :: _ => true
  | _ => false

mutual

/-- Read a value.  `block` tells whether blocks are allowed, `indentless` whether items may start
without an indentation. -/
def node? : (fuel : Nat) → (block indentless : Bool) → NodeReader Json
  | 0, _, _, _, _ => none
  | fuel + 1, block, indentless, anchors, tokens =>
    match tokens with
    | .reference name :: rest => (anchors.lookup name).map (·, anchors, rest)
    | _ => do
      let (given, tokens) := properties tokens
      let anchors := (given.anchor.map fun name => (name, Json.null) :: anchors).getD anchors
      let (value, anchors, tokens) ← content? fuel block indentless given anchors tokens
      let anchors := (given.anchor.map fun name => (name, value) :: anchors).getD anchors
      return (value, anchors, tokens)

def content? : (fuel : Nat) → (block indentless : Bool) → Properties → NodeReader Json
  | 0, _, _, _, _, _ => none
  | fuel + 1, block, indentless, given, anchors, tokens =>
    match tokens, block with
    | .scalar isPlain text :: rest, _ =>
      (scalarValue? given.tag isPlain text).map (·, anchors, rest)
    | .flowSequenceStart :: rest, _ => flowItems? fuel true [] anchors rest
    | .flowMappingStart :: rest, _ => flowMembers? fuel true [] anchors rest
    | .sequenceStart :: rest, true => items? fuel true [] anchors rest
    | .mappingStart :: rest, true => members? fuel [] anchors rest
    | .blockEntry :: _, _ =>
      if indentless then items? fuel false [] anchors tokens
      else if given = {} then none
      else some (.str "", anchors, tokens)
    | _, _ => if given = {} then none else some (.str "", anchors, tokens)

/-- Read the items of a sequence, which ends with its block if it has one.  `found` holds them in
reverse. -/
def items? : (fuel : Nat) → (closed : Bool) → List Json → NodeReader Json
  | 0, _, _, _, _ => none
  | fuel + 1, closed, found, anchors, tokens =>
    match tokens with
    | .blockEntry :: rest =>
      let missing :=
        match rest with
        | .blockEntry :: _ | .blockEnd :: _ => true
        | .key :: _ | .value :: _ => !closed
        | _ => false
      if missing then items? fuel closed (.null :: found) anchors rest
      else do
        let (item, anchors, rest) ← node? fuel true false anchors rest
        items? fuel closed (item :: found) anchors rest
    | .blockEnd :: rest =>
      some (.arr found.reverse, anchors, if closed then rest else tokens)
    | _ => if closed then none else some (.arr found.reverse, anchors, tokens)

/-- Read the members of a mapping.  `found` holds them in reverse. -/
def members? : (fuel : Nat) → List (String × Json) → NodeReader Json
  | 0, _, _, _ => none
  | fuel + 1, found, anchors, tokens => do
    match tokens with
    | .blockEnd :: rest => return (.obj found.reverse, anchors, rest)
    | .key :: rest =>
      let (key, anchors, rest) ←
        if isMissing rest then pure (.null, anchors, rest) else node? fuel true true anchors rest
      let (value, anchors, rest) ← memberValue? fuel anchors rest
      members? fuel ((← keyName? key, value) :: found) anchors rest
    | _ => none

/-- Read the value of a member.  It may be missing. -/
def memberValue? : (fuel : Nat) → NodeReader Json
  | 0, _, _ => none
  | fuel + 1, anchors, tokens =>
    match tokens with
    | .value :: rest =>
      if isMissing rest then some (.null, anchors, rest) else node? fuel true true anchors rest
    | _ => some (.null, anchors, tokens)

/-- Read the items of a sequence in brackets.  `found` holds them in reverse. -/
def flowItems? : (fuel : Nat) → (first : Bool) → List Json → NodeReader Json
  | 0, _, _, _, _ => none
  | fuel + 1, first, found, anchors, tokens => do
    match tokens with
    | .flowSequenceEnd :: rest => return (.arr found.reverse, anchors, rest)
    | _ =>
      let tokens ←
        match first, tokens with
        | true, _ => some tokens
        | false, .flowEntry :: rest => some rest
        | false, _ => none
      match tokens with
      | .flowSequenceEnd :: rest => return (.arr found.reverse, anchors, rest)
      | .key :: rest =>
        let (key, anchors, rest) ←
          if isFlowMissing rest then pure (.null, anchors, rest.drop 1)
          else node? fuel false false anchors rest
        let (value, anchors, rest) ← flowValue? fuel anchors rest
        flowItems? fuel false (.obj [(← keyName? key, value)] :: found) anchors rest
      | _ =>
        let (item, anchors, rest) ← node? fuel false false anchors tokens
        flowItems? fuel false (item :: found) anchors rest

/-- Read the members of a mapping in brackets.  `found` holds them in reverse. -/
def flowMembers? : (fuel : Nat) → (first : Bool) → List (String × Json) → NodeReader Json
  | 0, _, _, _, _ => none
  | fuel + 1, first, found, anchors, tokens => do
    match tokens with
    | .flowMappingEnd :: rest => return (.obj found.reverse, anchors, rest)
    | _ =>
      let tokens ←
        match first, tokens with
        | true, _ => some tokens
        | false, .flowEntry :: rest => some rest
        | false, _ => none
      match tokens with
      | .flowMappingEnd :: rest => return (.obj found.reverse, anchors, rest)
      | .key :: rest =>
        let (key, anchors, rest) ←
          if isFlowMissing rest then pure (.null, anchors, rest)
          else node? fuel false false anchors rest
        let (value, anchors, rest) ← flowValue? fuel anchors rest
        flowMembers? fuel false ((← keyName? key, value) :: found) anchors rest
      | .value :: _ => none
      | _ =>
        let (key, anchors, rest) ← node? fuel false false anchors tokens
        flowMembers? fuel false ((← keyName? key, .null) :: found) anchors rest

/-- Read the value of a member in brackets.  It may be missing. -/
def flowValue? : (fuel : Nat) → NodeReader Json
  | 0, _, _ => none
  | fuel + 1, anchors, tokens =>
    match tokens with
    | .value :: rest =>
      if isFlowMissing rest then some (.null, anchors, rest) else node? fuel false false anchors rest
    | _ => some (.null, anchors, tokens)

end

/-! ### Documents -/

/-- Read what stands in a document behind its mark.  It may be nothing. -/
def document? (fuel : Nat) (tokens : List Token) : Option (Json × List Token) :=
  match tokens with
  | .directive :: _ | .documentStart :: _ | .documentEnd :: _ | .streamEnd :: _ =>
    some (.null, tokens)
  | _ => (node? fuel true false [] tokens).map fun (value, _, rest) => (value, rest)

/-- Read documents up to the end.  Only the first one may come without a mark. -/
def documents? : (fuel : Nat) → (first : Bool) → List Token → Option (List Json)
  | 0, _, _ => none
  | fuel + 1, first, tokens => do
    let isEnd (token : Token) : Bool := token = .documentEnd
    let tokens := if first then tokens else tokens.dropWhile isEnd
    match tokens with
    | .streamEnd :: _ => return []
    | _ =>
      let marked := tokens.head? = some .directive || tokens.head? = some .documentStart
      let (value, rest) ←
        match first && !marked, tokens.dropWhile (· = .directive) with
        | true, _ => (node? (4 * tokens.length + 4) true false [] tokens).map fun (value, _, rest) =>
            (value, rest)
        | false, .documentStart :: rest => document? (4 * rest.length + 4) rest
        | false, _ => none
      let rest :=
        match rest with
        | .documentEnd :: rest | rest => rest
      return value :: (← documents? fuel false rest)

/-- Read a text with at most one document.  Without one it is an empty mapping. -/
def read? (text : String) : Option Json := do
  let tokens ← tokens? text
  match ← documents? (tokens.length + 1) true tokens with
  | [] => return .obj []
  | [value] => return value
  | _ => none

end Reactor.Yaml
