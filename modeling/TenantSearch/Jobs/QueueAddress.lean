-- A queue is named by a URL: host, port, password and the number of a database.
import TenantSearch.Failure
import TenantSearch.Text.Case
import TenantSearch.Text.HostAddress

namespace TenantSearch

structure QueueAddress where
  host : String
  port : Int
  password : Option String
  database : Int
deriving DecidableEq, Repr

namespace QueueAddress

/-! ## The parts of a URL -/

/-- The scheme in lower case, empty when there is none, and the text after it. -/
def splitScheme (cs : List Char) : String × List Char :=
  match splitFirst ':' cs with
  | (first :: scheme, some rest) =>
    if first.isAlpha && scheme.all isSchemeChar then
      (String.ofList ((first :: scheme).map Char.toLower), rest)
    else ("", cs)
  | _ => ("", cs)

/-- The part between `//` and the next `/`, `?` or `#`, and the path after it. -/
def authorityAndPath (cs : List Char) : List Char × List Char :=
  let isEnd := fun c : Char => c == '/' || c == '?' || c == '#'
  let (authority, rest) := match cs with
    | '/' :: '/' :: more => (more.takeWhile (!isEnd ·), more.dropWhile (!isEnd ·))
    | more => ([], more)
  (authority, rest.takeWhile fun c => c != '?' && c != '#')

/-- The schemes whose paths may end in parameters; no scheme at all is one of them. -/
def schemesWithParameters : List String :=
  ["", "ftp", "hdl", "prospero", "http", "https", "shttp", "rtsp", "rtspu", "sip", "sips", "mms",
    "sftp", "tel"]

/-- A path without the parameters of its last step. -/
def withoutParameters (path : List Char) : List Char :=
  match splitLast? '/' path with
  | some (before, last) => before ++ '/' :: (splitFirst ';' last).1
  | none => (splitFirst ';' path).1

/-- The host and the text of the port; brackets around a host are dropped. -/
def hostAndPort (cs : List Char) : List Char × Option (List Char) :=
  match (splitFirst '[' cs).2 with
  | some inside =>
    let (host, after) := splitFirst ']' inside
    (host, (splitFirst ':' (after.getD [])).2)
  | none => splitFirst ':' cs

/-- A port in ASCII digits, none when it is empty. -/
def port? : Option (List Char) → Except Breakage (Option Nat)
  | none => .ok none
  | some [] => .ok none
  | some digits =>
    if digits.all (fun c => (asciiDigit? c).isSome) then
      let port := Written.valueOf (digits.filterMap asciiDigit?)
      if port ≤ 65535 then .ok (some port) else .error .badNumber
    else .error .badNumber

/-! ## What an authority may hold -/

/-- What may stand in brackets: an address of eight groups, or a later form that names its
version. -/
def isBracketed : List Char → Bool
  | 'v' :: version =>
    let (digits, form) := splitFirst '.' version
    !digits.isEmpty && digits.all HostAddress.isHexDigit && !(form.getD []).isEmpty
  | host => HostAddress.isSixAddress host

/-- Whether the host of a location may stand in brackets. Nothing goes before them, and only a port
after them. -/
def hostFits (location : List Char) : Bool :=
  match splitFirst '[' location with
  | (before, some inside) =>
    let (host, after) := splitFirst ']' inside
    let after := after.getD []
    before.isEmpty && (after.isEmpty || after.head? == some ':') && isBracketed host
  | (_, none) => isBracketed (splitFirst ':' location).1

/-- Brackets come in pairs. With a pair anywhere, the host is what may stand in brackets. -/
def bracketsFit (authority : List Char) : Bool :=
  if authority.contains '[' && authority.contains ']' then
    hostFits (((splitLast? '@' authority).map (·.2)).getD authority)
  else !authority.contains '[' && !authority.contains ']'

/-- The characters whose compatible forms have a mark in them that parts a URL. -/
def hidingMarks : List Nat := [
  0x2047, 0x2048, 0x2049, 0x2100, 0x2101, 0x2105, 0x2106, 0x2A74, 0xFE13, 0xFE16, 0xFE55, 0xFE56,
  0xFE5F, 0xFE6B, 0xFF03, 0xFF0F, 0xFF1A, 0xFF1F, 0xFF20]

def hidesMark (c : Char) : Bool := hidingMarks.contains c.toNat

/-! ## Reading an address -/

/-- The characters that stand for nothing in a URL, wherever they are. -/
def isIgnored (c : Char) : Bool := c == '\t' || c == '\n' || c == '\r'

/-- The number of a database, nought for an empty text. -/
def database? (path : List Char) : Option Int :=
  let number := path.dropWhile (· == '/')
  if number.isEmpty then some 0 else wholeNumber? (String.ofList number)

/-- A host in lower case up to its zone; an empty one is this machine. -/
def hostText (host : List Char) : String :=
  if host.isEmpty then "localhost"
  else
    let (name, zone) := splitFirst '%' host
    lower (String.ofList name) ++ String.ofList ((zone.map ('%' :: ·)).getD [])

/-- The address that a URL writes. -/
def read (url : String) : Except Breakage QueueAddress := do
  let cs := (url.toList.dropWhile fun c => c.toNat ≤ 32).filter (!isIgnored ·)
  let (scheme, rest) := splitScheme cs
  let (authority, path) := authorityAndPath rest
  if !bracketsFit authority || authority.any hidesMark then throw .badNumber
  let path := if schemesWithParameters.contains scheme then withoutParameters path else path
  let (userinfo, location) := match splitLast? '@' authority with
    | some (userinfo, location) => (some userinfo, location)
    | none => (none, authority)
  let (host, portText) := hostAndPort location
  let port ← port? portText
  match database? path with
  | none => throw .badNumber
  | some database => pure {
      host := hostText host
      port := match port with
        | some n => if n = 0 then 6379 else n
        | none => 6379
      password := (userinfo.bind fun u => (splitFirst ':' u).2).map String.ofList
      database }

/-- The address of a queue that is set to any value. -/
def ofValue : Json → Except Breakage QueueAddress
  | .str url => read url
  | v => .error (if v.given then .notAnObject else .wrongOperand)

end QueueAddress

end TenantSearch
