/-!
# Splitting texts

Cutting a text at a separator and looking for one text inside another.  All functions work on lists
of characters and scan from left to right, so occurrences never overlap.
-/

namespace Reactor.Text

/-- The pieces between the occurrences of one separating character.  There is always at least one
piece, which may be empty. -/
def splitAt (separator : Char) : List Char → List (List Char)
  | [] => [[]]
  | character :: rest =>
    if character = separator then [] :: splitAt separator rest
    else
      match splitAt separator rest with
      | [] => [[character]]
      | piece :: pieces => (character :: piece) :: pieces

/-- The text before and after the first occurrence of a character, if there is one. -/
def cutAt (separator : Char) : List Char → Option (List Char × List Char)
  | [] => none
  | character :: rest =>
    if character = separator then some ([], rest)
    else (cutAt separator rest).map fun (before, after) => (character :: before, after)

/-- What follows `start` in a text that begins with it. -/
def stripStart : (start : List Char) → List Char → Option (List Char)
  | [], text => some text
  | _ :: _, [] => none
  | expected :: start, character :: text =>
    if expected = character then stripStart start text else none

/-- Drop the mark that some programs put at the start of a text to tell the order of its bytes. -/
def dropOrderMark : List Char → List Char
  | '\ufeff' :: text | text => text

def occursIn (part : List Char) : List Char → Bool
  | [] => part.isEmpty
  | text@(_ :: rest) => (stripStart part text).isSome || occursIn part rest

/-- Cut at every occurrence of a separator.  `skip` counts the characters of an occurrence that are
still to be passed over, and `piece` holds the current piece in reverse. -/
def segmentsFrom (separator : List Char) (skip : Nat) (piece : List Char) :
    List Char → List (List Char)
  | [] => [piece.reverse]
  | character :: rest =>
    match skip with
    | skip + 1 => segmentsFrom separator skip piece rest
    | 0 =>
      if (stripStart separator (character :: rest)).isSome then
        piece.reverse :: segmentsFrom separator (separator.length - 1) [] rest
      else segmentsFrom separator 0 (character :: piece) rest

def segments (separator text : List Char) : List (List Char) :=
  segmentsFrom separator 0 [] text

end Reactor.Text
