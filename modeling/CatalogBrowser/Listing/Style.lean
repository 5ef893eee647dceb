/-!
Text styles of a terminal.
-/

namespace CatalogBrowser.Listing

inductive Style where
  | bold
  | dimmed
  | yellow
  | blue
  | cyan
  | boldRed
  | boldGreen
  deriving Repr, DecidableEq

def Style.codes : Style → String
  | .bold => "1"
  | .dimmed => "2"
  | .yellow => "33"
  | .blue => "34"
  | .cyan => "36"
  | .boldRed => "1;31"
  | .boldGreen => "1;32"

def Style.opening (style : Style) : String := "\x1b[" ++ style.codes ++ "m"

def reset : String := "\x1b[0m"

/-- Puts `opening` after every reset, so that a styled part of a text does not end the style
around it. -/
def reopen (opening : List Char) : List Char → List Char
  | '\x1b' :: '[' :: '0' :: 'm' :: rest =>
    '\x1b' :: '[' :: '0' :: 'm' :: opening ++ reopen opening rest
  | c :: rest => c :: reopen opening rest
  | [] => []

def paint (colored : Bool) (style : Style) (text : String) : String :=
  if colored then
    style.opening ++ String.ofList (reopen style.opening.toList text.toList) ++ reset
  else text

def indent (depth : Nat) : String := String.ofList (List.replicate (2 * depth) ' ')

def padRight (width : Nat) (text : String) : String :=
  text ++ String.ofList (List.replicate (width - text.length) ' ')

end CatalogBrowser.Listing
