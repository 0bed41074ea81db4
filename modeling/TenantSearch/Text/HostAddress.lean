-- A host can be written as a number: four octets with points between, or eight groups of
-- hexadecimal digits with colons between, where two colons stand for as many empty
-- groups as are missing.
import TenantSearch.Number.Written

namespace TenantSearch

/-- The characters before and after the first of a kind, if there is one. -/
def splitFirst (c : Char) (cs : List Char) : List Char × Option (List Char) :=
  let before := cs.takeWhile (· != c)
  match cs.drop before.length with
  | [] => (before, none)
  | _ :: after => (before, some after)

/-- The characters before and after the last of a kind, if there is one. -/
def splitLast? (c : Char) (cs : List Char) : Option (List Char × List Char) :=
  let after := (cs.reverse.takeWhile (· != c)).reverse
  if after.length < cs.length then some (cs.take (cs.length - after.length - 1), after) else none

/-- A character of the scheme that a URL may start with. -/
def isSchemeChar (c : Char) : Bool := c.isAlphanum || c == '+' || c == '-' || c == '.'

namespace HostAddress

def isHexDigit (c : Char) : Bool := (hexDigit? c).isSome

/-- One to four hexadecimal digits. -/
def isGroup (cs : List Char) : Bool := 1 ≤ cs.length && cs.length ≤ 4 && cs.all isHexDigit

/-- A number up to 255 without leading zeros. -/
def isOctet (cs : List Char) : Bool :=
  1 ≤ cs.length && cs.length ≤ 3 && cs.all Char.isDigit &&
    (cs.length == 1 || cs.head? != some '0') && Written.valueOf (cs.filterMap asciiDigit?) ≤ 255

/-- Four numbers with points between. -/
def isDotted (cs : List Char) : Bool :=
  let parts := piecesBy (· == '.') cs
  parts.length == 4 && parts.all isOctet

/-- The pieces with a dotted one at the end replaced by the two groups that it stands for. -/
def withoutDotted? (pieces : List (List Char)) : Option (List (List Char)) :=
  match pieces.reverse with
  | last :: earlier =>
    if last.contains '.' then
      if isDotted last then some (earlier.reverse ++ [['0'], ['0']]) else none
    else some pieces
  | [] => some []

/-- How many groups stand on one side of a double colon; one empty piece is none. -/
def sideSize? (pieces : List (List Char)) : Option Nat :=
  if pieces == [[]] then some 0
  else if pieces.all isGroup then some pieces.length
  else none

/-- Eight groups, or fewer around one empty piece that stands for the others. -/
def areGroups (pieces : List (List Char)) : Bool :=
  let rest := pieces.drop 1
  let before := pieces.take 1 ++ rest.takeWhile (!·.isEmpty)
  match rest.dropWhile (!·.isEmpty) with
  | _ :: next :: more =>
    match sideSize? before, sideSize? (next :: more) with
    | some n, some m => n + m ≤ 7
    | _, _ => false
  | _ => pieces.length == 8 && pieces.all isGroup

/-- The pieces of an address, of which there are three at least. -/
def pieces? (address : List Char) : Option (List (List Char)) :=
  let pieces := piecesBy (· == ':') address
  if pieces.length < 3 then none else withoutDotted? pieces

/-- An address of eight groups, perhaps with a zone that is not empty. -/
def isSixAddress (host : List Char) : Bool :=
  let (address, zone) := splitFirst '%' host
  zone != some [] && !((zone.getD []).contains '%') && ((pieces? address).map areGroups).getD false

end HostAddress

end TenantSearch
