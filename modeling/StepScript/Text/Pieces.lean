/-!
# Pieces of texts

Texts cut at every occurrence of a separator, and texts as lines.
-/

namespace StepScript.Text

/-- The parts between the separators; there is one more of them than separators. -/
def pieces (separator : Char) : List Char → List (List Char)
  | [] => [[]]
  | c :: text =>
    if c = separator then [] :: pieces separator text
    else
      match pieces separator text with
      | first :: rest => (c :: first) :: rest
      | [] => [[c]]

/-- The lines of a text, each with the line break that ends it. -/
def brokenLines : List Char → List (List Char)
  | [] => []
  | c :: text =>
    if c = '\n' then [c] :: brokenLines text
    else
      match brokenLines text with
      | first :: rest => (c :: first) :: rest
      | [] => [[c]]

/-- A line without its line break: a line feed, or a carriage return and a line feed. -/
def withoutBreak (line : List Char) : List Char :=
  match line.reverse with
  | '\n' :: '\r' :: rest => rest.reverse
  | '\n' :: rest => rest.reverse
  | _ => line

/-- The lines of a text, without their line breaks. -/
def lineChars (text : List Char) : List (List Char) := (brokenLines text).map withoutBreak

def lines (text : String) : List String := (lineChars text.toList).map String.ofList

def withoutMark : List Char → List Char
  | '\uFEFF' :: text => text
  | text => text

/-- The text with the capital letters from A to Z made small. -/
def lowercase (text : String) : String :=
  String.ofList (text.toList.map Char.toLower)

end StepScript.Text
