import Mathlib.Data.List.Basic

/-! Strings of the source and the functions of `std::string` that search them. -/
namespace P2P

/-- A string of the source, character by character. -/
abbrev Text := List Char

namespace Text

/-- `string::find` of a character from a position on; `none` is `npos`. -/
def find (text : Text) (c : Char) (start : Nat) : Option Nat :=
  ((text.drop start).findIdx? (· == c)).map (start + ·)

/-- `string::find` of a string from the beginning. -/
def findText (key : Text) : Text → Option Nat
  | [] => if key.isPrefixOf [] then some 0 else none
  | c :: text =>
    if key.isPrefixOf (c :: text) then some 0 else (findText key text).map (· + 1)

/-- `string::rfind` of a character from the end. -/
def rfind (text : Text) (c : Char) : Option Nat :=
  (text.reverse.findIdx? (· == c)).map (text.length - 1 - ·)

/-- `string::substr` with a position and a count. -/
def substr (text : Text) (start count : Nat) : Text := (text.drop start).take count

end Text

end P2P
