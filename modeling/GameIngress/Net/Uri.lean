/-!
# URIs

A URI is an authority alone, a path alone, or a scheme, `://`, an authority that is not empty and
perhaps a path, a query and a fragment.
-/
namespace GameIngress.Net.Uri

/-- A character that may stand in an authority, or ends one. -/
def isMark (c : Char) : Bool := c.isAlphanum || "!#$&'()*+,-./:;=?@[]_~".toList.contains c

def endsAuthority (c : Char) : Bool := c == '/' || c == '?' || c == '#'

/-- What an authority has shown so far. -/
structure AuthorityScan where
  /-- Colons since the user's part or a bracketed host. -/
  colons : Nat := 0
  opened : Bool := false
  closed : Bool := false
  /-- A percent sign was met that no user's part or bracket accounts for. -/
  percent : Bool := false
  /-- The last character was the one that ends a user's part. -/
  userEnds : Bool := false

namespace AuthorityScan

def next? (a : AuthorityScan) (c : Char) : Option AuthorityScan :=
  let a := { a with userEnds := c == '@' }
  match c with
  | ':' => if a.colons < 8 then some { a with colons := a.colons + 1 } else none
  | '[' => if a.percent || a.opened then none else some { a with opened := true }
  | ']' =>
    if !a.opened || a.closed then none
    else some { a with closed := true, colons := 0, percent := false }
  | '@' => some { a with colons := 0, percent := false }
  | '%' => some { a with percent := true }
  | c => if isMark c then some a else none

/-- At most a port follows the host, and brackets come in pairs. -/
def isComplete (a : AuthorityScan) : Bool :=
  a.opened == a.closed && a.colons ≤ 1 && !a.userEnds && !a.percent

end AuthorityScan

def isAuthority (cs : List Char) : Bool :=
  (cs.foldlM AuthorityScan.next? {}).any (·.isComplete)

/-- A character that a path holds as it is. -/
def isPathChar (c : Char) : Bool :=
  let n := c.toNat
  n == 0x21 || n == 0x22 || (0x24 ≤ n && n ≤ 0x3B) || n == 0x3D || (0x40 ≤ n && n ≤ 0x5F)
    || 0x61 ≤ n

/-- A character that a query holds as it is. -/
def isQueryChar (c : Char) : Bool :=
  let n := c.toNat
  n == 0x21 || (0x24 ≤ n && n ≤ 0x3B) || n == 0x3D || 0x3F ≤ n

/-- A path and a query, before a fragment that may hold anything. -/
def isPath (cs : List Char) : Bool :=
  let target := cs.takeWhile (· ≠ '#')
  (target.takeWhile (· ≠ '?')).all isPathChar
    && ((target.dropWhile (· ≠ '?')).drop 1).all isQueryChar

def isSchemeChar (c : Char) : Bool := c.isAlphanum || c == '+' || c == '-' || c == '.'

/-- The scheme and what follows it, if there is a scheme. -/
def splitScheme? (cs : List Char) : Option (List Char × List Char) :=
  match cs.dropWhile isSchemeChar with
  | ':' :: '/' :: '/' :: rest =>
    if 3 < cs.length then some (cs.takeWhile isSchemeChar, rest) else none
  | _ => none

/-- The greatest length of a scheme. -/
def schemeLimit : Nat := 64

/-- The length that no URI reaches. -/
def sizeLimit : Nat := 65535

/-- Whether the text is a URI. -/
def isUri (s : String) : Bool :=
  let cs := s.toList
  if sizeLimit ≤ s.utf8ByteSize then false
  else match cs with
  | [] => false
  | '/' :: _ => isPath cs
  | _ =>
    match splitScheme? cs with
    | none => isAuthority cs && !cs.any endsAuthority
    | some (scheme, rest) =>
      let authority := rest.takeWhile (!endsAuthority ·)
      scheme.length ≤ schemeLimit && !authority.isEmpty && isAuthority authority
        && isPath (rest.dropWhile (!endsAuthority ·))

end GameIngress.Net.Uri
