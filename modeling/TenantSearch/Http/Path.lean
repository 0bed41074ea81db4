-- A request names its target by an address: a path, perhaps after a scheme and an
-- authority, perhaps with a query and a fragment after it. Only the path counts. Its
-- steps `.` and `..` are resolved first, then its percent signs.
import TenantSearch.Failure
import TenantSearch.Text.HostAddress

namespace TenantSearch

namespace Http

namespace Path

/-- The parts of an address that its path is found by. -/
structure Address where
  scheme : List Char
  authority : List Char
  path : List Char

/-- The scheme before a colon, which may be empty, and what follows it. -/
def splitScheme (cs : List Char) : List Char × List Char :=
  match splitFirst ':' cs with
  | ([], some rest) => ([], rest)
  | (first :: scheme, some rest) =>
    if first.isAlpha && scheme.all isSchemeChar then (first :: scheme, rest) else ([], cs)
  | (_, none) => ([], cs)

/-- The parts of an address; its query and fragment are passed over. -/
def parts (cs : List Char) : Address :=
  let isEnd := fun c : Char => c == '?' || c == '#'
  let (scheme, rest) := splitScheme cs
  match rest with
  | '/' :: '/' :: more =>
    let isStop := fun c : Char => c == '/' || isEnd c
    ⟨scheme, more.takeWhile (!isStop ·), (more.dropWhile (!isStop ·)).takeWhile (!isEnd ·)⟩
  | more => ⟨scheme, [], more.takeWhile (!isEnd ·)⟩

/-! ## The authority -/

/-- The host of a location and the text of its port. -/
def hostAndPort (location : List Char) : List Char × List Char :=
  let (host, rest) := match location with
    | '[' :: _ =>
      match splitLast? ']' location with
      | some (host, rest) => (host ++ [']'], rest)
      | none => (location.takeWhile (· != ':'), location.dropWhile (· != ':'))
    | _ =>
      let isStop := fun c : Char => c == ':' || c == '@'
      (location.takeWhile (!isStop ·), location.dropWhile (!isStop ·))
  (host, match rest with
    | ':' :: port => port
    | rest => rest)

/-- Whether a host that looks like a number is one. -/
def hostFits (host : List Char) : Bool :=
  let octets := piecesBy (· == '.') host
  if octets.length == 4 && octets.all (fun o => !o.isEmpty && o.all Char.isDigit) then
    HostAddress.isDotted host
  else
    match host with
    | '[' :: rest => HostAddress.isSixAddress (rest.take (rest.length - 1))
    | _ => true

/-- What an authority says, an empty port being none. -/
structure Authority where
  userinfo : List Char
  host : List Char
  port : Option Int

/-- The authority that a text writes, when its host and port can be read. -/
def Authority.read? (cs : List Char) : Option Authority :=
  let (userinfo, location) := match splitFirst '@' cs with
    | (userinfo, some location) => (userinfo, location)
    | (location, none) => ([], location)
  let (host, port) := hostAndPort location
  if !hostFits host then none
  else if port.isEmpty then some ⟨userinfo, host, none⟩
  else (wholeNumber? (String.ofList port)).map fun n => ⟨userinfo, host, some n⟩

/-- Whether an authority says anything. -/
def Authority.isGiven (a : Authority) : Bool :=
  !a.userinfo.isEmpty || !a.host.isEmpty || a.port.isSome

/-! ## Steps and percent signs -/

/-- The steps of a path with `.` and `..` resolved; `done` holds the steps kept, the last one
first. The root is never left. -/
def resolve (done : List (List Char)) : List (List Char) → List (List Char)
  | [] => done.reverse
  | ['.'] :: rest => resolve done rest
  | ['.', '.'] :: rest => resolve (if done == [[]] then done else done.drop 1) rest
  | step :: rest => resolve (step :: done) rest

/-- A path with its steps resolved. -/
def resolved (path : List Char) : List Char :=
  ['/'].intercalate (resolve [] (piecesBy (· == '/') path))

/-- The character of a byte. No route has any but ASCII characters, so one stands for all
others. -/
def charOfByte (n : Nat) : Char := if n < 128 then Char.ofNat n else Char.ofNat 0xFFFD

/-- A path with every percent sign and its two digits replaced by the character they stand for. -/
def decoded : List Char → List Char
  | '%' :: a :: b :: rest =>
    match hexDigit? a, hexDigit? b with
    | some a, some b => charOfByte (a * 16 + b) :: decoded rest
    | _, _ => '%' :: decoded (a :: b :: rest)
  | c :: rest => c :: decoded rest
  | [] => []

/-! ## Reading an address -/

/-- A character that no address may have: an ASCII control character. -/
def isControl (c : Char) : Bool := c.toNat < 32 || c.toNat == 127

/-- The path of an address before its percent signs are replaced. A relative address has at most
one slash in front; without scheme and authority it may not start with two, nor with a colon. -/
def target? (cs : List Char) : Option (List Char) := do
  let address := parts cs
  let authority ← Authority.read? address.authority
  let rooted := !address.scheme.isEmpty || authority.isGiven
  if !rooted && (address.path.take 2 == ['/', '/'] || address.path.head? == some ':') then none
  else
    let path := if rooted then resolved address.path else address.path
    if !address.scheme.isEmpty && !authority.host.isEmpty then some path
    else some (resolved ('/' :: path.dropWhile (· == '/')))

/-- The most characters that an address has. -/
def mostCharacters : Nat := 65536

/-- The path that an address leads to. The root may be left out. -/
def read (address : String) : Except Breakage String :=
  let cs := address.toList
  match (if mostCharacters < cs.length || cs.any isControl then none else target? cs) with
  | none => .error .badAddress
  | some path => .ok (if path.isEmpty then "/" else String.ofList (decoded path))

end Path

end Http

end TenantSearch
