/-!
# Blank characters

The characters with the Unicode property White_Space, and the removal of blanks from both ends of
a text.  Characters are handled as lists, so that what is removed can be described by recursion.
-/

namespace Reactor.Text

/-- Whether a character is white space: the tabulator to the carriage return, the spaces and the
line and paragraph separators. -/
def isBlank (character : Char) : Bool :=
  let code := character.toNat
  (0x09 ≤ code && code ≤ 0x0D) || code == 0x20 || code == 0x85 || code == 0xA0 ||
    code == 0x1680 || (0x2000 ≤ code && code ≤ 0x200A) || code == 0x2028 || code == 0x2029 ||
    code == 0x202F || code == 0x205F || code == 0x3000

def trimEnd : List Char → List Char
  | [] => []
  | character :: rest =>
    match trimEnd rest with
    | [] => if isBlank character then [] else [character]
    | kept => character :: kept

def trim (characters : List Char) : List Char :=
  trimEnd (characters.dropWhile isBlank)

end Reactor.Text
