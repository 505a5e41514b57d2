import Reactor.Json.Fields
import Reactor.Json.Reader
import Reactor.Program.Basic

/-!
# Reading programs

Expressions and type tags are handed over as JSON: records with the tags `type` and `kind`.  A tag
inside another expression may also be given by its number.
-/

namespace Reactor

namespace Json

def toTexts? (json : Json) : Option (List String) := do
  (← json.toItems?).mapM toText?

def toOptionalText? : Option Json → Option (Option String)
  | none | some null => some none
  | some json => json.toText?.map some

end Json

def TypeTag.names : List String :=
  ["Bool", "Number", "Text", "List", "Set", "Map", "Function", "Structure", "Exception"]

def TypeTag.ofJson? (json : Json) : Option TypeTag := do
  let (name, fields) ← json.tagged? "kind" names true
  match name with
  | "Number" =>
    let [units] ← fields.values? ["unit"] | none
    return .number (← Json.toOptionalText? units)
  | "Structure" =>
    let [some name] ← fields.values? ["name"] | none
    return .record (← name.toText?)
  | plain =>
    if !fields.canBeEmpty then none
    else
      match plain with
      | "Bool" => some .bool
      | "Text" => some .text
      | "List" => some .list
      | "Set" => some .set
      | "Map" => some .map
      | "Function" => some .function
      | "Exception" => some .exception
      | _ => none

namespace Expr

def names : List String :=
  ["Bool", "Num", "Text", "List", "Set", "Map", "Name", "Previous", "Block", "Bind", "Function",
    "Structure", "Call", "Binary", "Unary", "Conditional", "Access", "Is", "Stream", "Changed",
    "Reaction", "Borrow"]

def entryOfJson? (part : Json → Option Expr) (json : Json) : Option (Expr × Expr) := do
  let [some key, some value] ← (← Json.Fields.ofJson? json).values? ["key", "value"] | none
  return (← part key, ← part value)

def functionOfJson? (part : Json → Option Expr) (json : Json) : Option (Signature × Expr) := do
  let [some word, some params, some body] ←
    (← Json.Fields.ofJson? json).values? ["name", "params", "body"] | none
  return (⟨← word.toText?, ← params.toTexts?⟩, ← part body)

def listOfJson? {α : Type} (part : Json → Option α) (json : Json) : Option (List α) := do
  (← json.toItems?).mapM part

def optionalListOfJson? {α : Type} (part : Json → Option α) : Option Json → Option (List α)
  | none => some []
  | some json => listOfJson? part json

/-- Read an expression with a name and fields, given how to read its parts. -/
def ofFields? (part : Json → Option Expr) (chosen : String) (fields : Json.Fields) :
    Option Expr := do
  match chosen with
  | "Bool" =>
    let [some value] ← fields.values? ["v"] | none
    return .bool (← value.toBool?)
  | "Num" =>
    let [some value, units] ← fields.values? ["v", "unit"] | none
    return .num (← value.toFloat?) (← Json.toOptionalText? units)
  | "Text" =>
    let [some value] ← fields.values? ["v"] | none
    return .text (← value.toText?)
  | "List" =>
    let [some items] ← fields.values? ["items"] | none
    return .list (← listOfJson? part items)
  | "Set" =>
    let [some items] ← fields.values? ["items"] | none
    return .set (← listOfJson? part items)
  | "Map" =>
    let [some entries] ← fields.values? ["entries"] | none
    return .map (← listOfJson? (entryOfJson? part) entries)
  | "Name" =>
    let [some word] ← fields.values? ["name"] | none
    return .name (← word.toText?)
  | "Previous" => if fields.canBeEmpty then some .previous else none
  | "Block" =>
    let [some statements] ← fields.values? ["statements"] | none
    return .block (← listOfJson? part statements)
  | "Bind" =>
    let [some word, some value] ← fields.values? ["name", "value"] | none
    return .bind (← word.toText?) (← part value)
  | "Function" =>
    let [word, some params, some body] ← fields.values? ["name", "params", "body"] | none
    return .function (← Json.toOptionalText? word) (← params.toTexts?) (← part body)
  | "Structure" =>
    let [some word, some names, functions] ← fields.values? ["name", "fields", "functions"] | none
    return .record (← word.toText?) (← names.toTexts?)
      (← optionalListOfJson? (functionOfJson? part) functions)
  | "Call" =>
    let [some callee, args] ← fields.values? ["callee", "args"] | none
    return .call (← part callee) (← optionalListOfJson? part args)
  | "Binary" =>
    let [some left, some op, some right] ← fields.values? ["left", "op", "right"] | none
    return .binary (← part left) (← op.toText?) (← part right)
  | "Unary" =>
    let [some op, some operand] ← fields.values? ["op", "operand"] | none
    return .unary (← op.toText?) (← part operand)
  | "Conditional" =>
    let [some condition, some yes, some no] ← fields.values? ["condition", "yes", "no"] | none
    return .conditional (← part condition) (← part yes) (← part no)
  | "Access" =>
    let [some subject, some word] ← fields.values? ["subject", "name"] | none
    return .access (← part subject) (← word.toText?)
  | "Is" =>
    let [some operand, some tag] ← fields.values? ["operand", "tag"] | none
    return .is (← part operand) (← TypeTag.ofJson? tag)
  | "Stream" =>
    let [some word] ← fields.values? ["name"] | none
    return .stream (← word.toText?)
  | "Changed" =>
    let [some subject] ← fields.values? ["stream"] | none
    return .changed (← part subject)
  | "Reaction" =>
    let [some initial, some condition, some next] ←
      fields.values? ["initial", "condition", "next"] | none
    return .reaction (← part initial) (← part condition) (← part next)
  | "Borrow" =>
    let [some source, word] ← fields.values? ["source", "name"] | none
    return .borrow (← source.toText?) (← Json.toOptionalText? word)
  | _ => none

/-- Read an expression with at most the given number of expressions inside one another. -/
def ofJsonWithin? (numbered : Bool) : Nat → Json → Option Expr
  | 0, _ => none
  | levels + 1, json => do
    let (chosen, fields) ← json.tagged? "type" names numbered
    ofFields? (ofJsonWithin? true levels) chosen fields

/-- Read an expression.  Its parts are values inside the given one, so its depth is enough. -/
def ofJson? (json : Json) : Option Expr :=
  ofJsonWithin? false json.depth json

def read? (text : String) : Option Expr := do
  ofJson? (← Json.read text)

end Expr

def Program.read? (text : String) : Option Program :=
  (Expr.read? text).map ofExpr

end Reactor
