import Reactor.Native.Collections
import Reactor.Native.Scalars

/-!
# The catalogue of native functions

Every kind of value has its native functions, found by name and by the number of inputs.  Some kinds
also have a conversion: calling the name of the kind converts a value to it.
-/

namespace Reactor

namespace Native

/-- What a native function does, by the number of its inputs beside the receiver. -/
inductive Body where
  | nullary (plan : (node : NodeId) → (receiver : Val) → Plan (receiver.Within []))
  | unary (plan : (node : NodeId) → (receiver input : Val) → Plan (receiver.Within [input]))
  | binary (plan : (node : NodeId) → (receiver first second : Val) →
      Plan (receiver.Within [first, second]))

/-- The number of inputs beside the receiver. -/
def Body.arity : Body → Nat
  | nullary _ => 0
  | unary _ => 1
  | binary _ => 2

/-- The plan for a receiver and inputs, whose number is checked. -/
def Body.plan (body : Body) (node : NodeId) (receiver : Val) (args : List Val) :
    Plan (receiver.Within args) :=
  match body, args with
  | nullary plan, [] => plan node receiver
  | unary plan, [input] => plan node receiver input
  | binary plan, [first, second] => plan node receiver first second
  | body, args => .done (.failure (.arityMismatch body.arity args.length) node)

/-- A native function. -/
structure Function where
  name : String
  body : Body

/-- The number of inputs beside the receiver. -/
def Function.arity (function : Function) : Nat :=
  function.body.arity

/-- A function of the receiver alone that calls no other. -/
def simple (name : String) (compute : NodeId → Val → Val) : Function :=
  ⟨name, .nullary fun node receiver => .done (compute node receiver)⟩

/-- A function of the receiver and one input that calls no other. -/
def operator (name : String) (compute : NodeId → Val → Val → Val) : Function :=
  ⟨name, .unary fun node receiver input => .done (compute node receiver input)⟩

/-- What a kind of values can do. -/
structure Suite where
  functions : List Function
  conversion : Option (Val → NodeId → Val)

/-- What values of all kinds can do. -/
def equality : List Function :=
  [operator "=" fun _ receiver other => .bool (receiver.same other),
    operator "≠" fun _ receiver other => .bool !(receiver.same other)]

/-- What Booleans can do. -/
def truthFunctions : List Function :=
  [operator "&" (combineTruths (· && ·)), operator "|" (combineTruths (· || ·)),
    simple "~" negateTruth]

/-- What numbers can do.  A name may stand for functions with different numbers of inputs. -/
def numberFunctions : List Function :=
  [operator "+" (combineNumbers (· + ·)), operator "-" (combineNumbers (· - ·)),
    simple "-" (changeNumber (-·)), operator "·" multiplyNumbers, operator "÷" divideNumbers,
    operator "%" remainderOfNumbers, operator "^" powerOfNumbers,
    operator "<" (compareNumbers (· < ·)), operator ">" (compareNumbers (· > ·)),
    operator "≤" (compareNumbers (· ≤ ·)), operator "≥" (compareNumbers (· ≥ ·)),
    simple "roundDown" (changeNumber Float.floor), simple "roundUp" (changeNumber Float.ceil),
    simple "abs" (changeNumber Float.abs)]

/-- What texts can do. -/
def textFunctions : List Function :=
  [operator "+" appendTexts, operator "combine" appendTexts, simple "length" lengthOfText,
    operator "repeat" repeatText, operator "segment" segmentText, operator "has" occursInText]

/-- What lists can do. -/
def listFunctions : List Function :=
  [simple "length" lengthOfList, simple "first" firstOfList, simple "last" lastOfList,
    operator "has" listHas, operator "add" addToList, operator "at" itemOfList,
    simple "reverse" reverseList, operator "sans" listWithout,
    ⟨"translate", .unary translateList⟩, ⟨"filter", .unary filterList⟩,
    ⟨"all", .unary everyItem⟩, ⟨"combine", .binary combineList⟩]

/-- What sets can do. -/
def setFunctions : List Function :=
  [simple "size" sizeOfSet, operator "has" setHas, operator "add" addToSet,
    operator "remove" removeFromSet, operator "union" uniteSets, ⟨"filter", .unary filterSet⟩]

/-- What maps can do. -/
def mapFunctions : List Function :=
  [simple "size" sizeOfMap, operator "has" mapHas, operator "get" valueInMap,
    ⟨"set", .binary fun node receiver key value => .done (setInMap node receiver key value)⟩,
    operator "unset" unsetInMap, operator "remove" removeFromMap, ⟨"filter", .unary filterMap⟩,
    ⟨"translate", .unary translateMap⟩, simple "keys" keysOfMap, simple "values" valuesOfMap]

/-- What values of each kind can do. -/
def suite : Kind → Suite
  | .boolean => ⟨equality ++ truthFunctions, none⟩
  | .number => ⟨equality ++ numberFunctions, some convertToNumber⟩
  | .text => ⟨equality ++ textFunctions, some convertToText⟩
  | .list => ⟨equality ++ listFunctions, some convertToList⟩
  | .set => ⟨equality ++ setFunctions, some convertToSet⟩
  | .map => ⟨equality ++ mapFunctions, some convertToMap⟩
  | .record | .function | .exception => ⟨equality, none⟩

/-- Whether a kind has a function of this name, for whatever number of inputs. -/
def has (kind : Kind) (name : String) : Bool :=
  (suite kind).functions.any (·.name = name)

/-- The function of a kind with a name and a number of inputs. -/
def lookup (kind : Kind) (name : String) (arity : Nat) : Except Cause Function :=
  match (suite kind).functions.filter (·.name = name) with
  | [] => .error (.unknownFunction kind.name name)
  | named@(first :: _) =>
    match named.find? (·.arity = arity) with
    | some function => .ok function
    | none => .error (.arityMismatch first.arity arity)

/-- The kind of this name, if values can be converted to it. -/
def conversion? (name : String) : Option Kind :=
  (Kind.ofName? name).filter fun kind => (suite kind).conversion.isSome

/-- The name of a function and the number of its inputs. -/
def Function.describe (function : Function) : String :=
  s!"{function.name}/{function.arity}"

/-- The functions of a kind, as text. -/
def describe (kind : Kind) : String :=
  let functions := ", ".intercalate ((suite kind).functions.map Function.describe)
  s!"NativeStructure \x7b kind: {kind.name}, functions: [{functions}], conversion: {(suite kind).conversion.isSome} \x7d"

end Native

end Reactor
