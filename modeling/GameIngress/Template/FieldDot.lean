import GameIngress.Text.Blank

/-!
# Field dots

Annotation templates may write a variable as a field, `.Name` for `Name`. Inside double braces, a
dot that follows a blank, a brace or a parenthesis and starts an identifier is dropped.
-/
namespace GameIngress.Template

def startsField (c : Char) : Bool := c.isAlpha || c = '_'

def isFieldBoundary (c : Char) : Bool := Text.isBlank c || c = '{' || c = '('

/-- `inBlock` says whether the place lies inside double braces, and `before` is the character
before it in the source. -/
def dropFieldDotsFrom (inBlock : Bool) (before : Option Char) : List Char → List Char
  | [] => []
  | [c] => [c]
  | c :: d :: rest =>
    if !inBlock && c = '{' && d = '{' then
      '{' :: '{' :: dropFieldDotsFrom true (some '{') rest
    else if inBlock && c = '}' && d = '}' then
      '}' :: '}' :: dropFieldDotsFrom false (some '}') rest
    else if inBlock && c = '.' && startsField d && before.any isFieldBoundary then
      dropFieldDotsFrom inBlock (some c) (d :: rest)
    else
      c :: dropFieldDotsFrom inBlock (some c) (d :: rest)

def dropFieldDots (source : List Char) : List Char := dropFieldDotsFrom false none source

end GameIngress.Template
