import GameIngress.Json.Basic
import GameIngress.Text.Quoted

/-!
# Printing JSON

The compact form: no blanks, and in texts only quotes, backslashes and controls are escaped.
-/
namespace GameIngress.Json

private def hexDigit (n : Nat) : Char :=
  if n < 10 then Char.ofNat (48 + n) else Char.ofNat (87 + n)

def escapedChar (c : Char) : List Char :=
  match c with
  | '"' => ['\\', '"']
  | '\\' => ['\\', '\\']
  | '\n' => ['\\', 'n']
  | '\r' => ['\\', 'r']
  | '\t' => ['\\', 't']
  | '\x08' => ['\\', 'b']
  | '\x0c' => ['\\', 'f']
  | c =>
    if c.toNat < 32 then
      ['\\', 'u', '0', '0', hexDigit (c.toNat / 16), hexDigit (c.toNat % 16)]
    else [c]

def renderText (s : String) : String :=
  String.ofList ('"' :: s.toList.flatMap escapedChar ++ ['"'])

def renderDecimal (mantissa exponent : Int) : String :=
  toString mantissa ++ "e" ++ toString exponent

mutual
/-- The compact text of a value. -/
def render : Json → String
  | .null => "null"
  | .bool b => if b then "true" else "false"
  | .int i => toString i
  | .decimal m e => renderDecimal m e
  | .text s => renderText s
  | .array xs => "[" ++ renderItems xs ++ "]"
  | .object ms => Text.braced (renderMembers ms)
def renderItems : List Json → String
  | [] => ""
  | [x] => render x
  | x :: xs => render x ++ "," ++ renderItems xs
def renderMembers : List (String × Json) → String
  | [] => ""
  | [(k, x)] => renderText k ++ ":" ++ render x
  | (k, x) :: xs => renderText k ++ ":" ++ render x ++ "," ++ renderMembers xs
end

end GameIngress.Json
