-- A caller proves itself by a signed token. What counts here is whether the token is
-- sound, what it claims and when it expires; its bytes are the business of the
-- cryptography outside. Tokens are issued and checked by a clock of their own, whose
-- time is far from that of any token's lifetime.
import TenantSearch.Access.Context
import TenantSearch.Settings
import TenantSearch.Time.Duration

namespace TenantSearch

/-- A token as it is presented: nothing, a text that was never signed or was tampered with, a value
that is no text, or claims with the moment at which they expire. -/
inductive Token where
  | absent
  | unsound
  | noText
  | signed (claims : Fields) (expiry : Timestamp)

namespace Token

/-- The moment at which tokens are issued and checked. -/
def present : Timestamp := ⟨63902865600000000⟩

/-- The moment from which the times in claims are counted, in seconds. -/
def epoch : Timestamp := ⟨62135596800000000⟩

/-- The seconds of a moment since the epoch, the present included. -/
def secondsOf (t : Timestamp) : Int :=
  (t.micros : Int) / 1000000 - (epoch.micros : Int) / 1000000

/-- The ways of signing by a secret text. -/
def signings : List String := ["HS256", "HS384", "HS512"]

/-- Whether the settings can sign. The way of signing has to be a name at least. -/
def canSign (s : Settings) : Except Breakage Bool :=
  match s.tokenAlgorithm, s.tokenSecret with
  | .arr _, _ => .error .wrongOperand
  | .obj _, _ => .error .wrongOperand
  | .str way, .str secret => .ok (signings.contains way && !hasSurrogate secret)
  | _, _ => .ok false

/-- A token issued for claims. It expires after the lifetime given, if that is not nought, or after
the minutes of the settings. -/
def issue (s : Settings) (claims : Json) (lifetime : Int) : Except Breakage Token := do
  match claims with
  | .obj _ | .arr _ => pure ()
  | _ => throw .notAnObject
  let lifetime ←
    if lifetime = 0 then Duration.ofNumber Duration.microsPerMinute s.tokenMinutes
    else pure lifetime
  match claims, present.shift? lifetime with
  | _, none => throw .outOfRange
  | .obj fields, some expiry =>
    if ← canSign s then pure (.signed fields expiry) else throw .unsignable
  | _, some _ => throw .notAnObject

/-! ## Checking claims -/

/-- Whether a claim that must be a time is refused: it writes no whole number, or one that does not
fit. A claim that cannot even be read as a number is a breakage. -/
def refusesTime (claims : Fields) (name : String) (fits : Int → Bool) : Except Breakage Bool :=
  match claims.get? name with
  | none => .ok false
  | some v =>
    match v.wholePart with
    | .ok n => .ok (!fits n)
    | .error .badNumber => .ok true
    | .error b => .error b

/-- Claims that a token may not make: an audience or an access-token hash, which nobody here
expects, and a subject or token identifier that is no text. -/
def refusesNames (claims : Fields) : Bool :=
  let isOddText := fun name =>
    match claims.get? name with
    | none => false
    | some (.str _) => false
    | some _ => true
  claims.has "aud" || isOddText "sub" || isOddText "jti" || claims.has "at_hash"

/-- Whether the claims of a token are refused. The times come first: of issue, of the first use, of
expiry. -/
def isRefused (claims : Fields) (expiry : Timestamp) : Except Breakage Bool := do
  if ← refusesTime claims "iat" fun _ => true then pure true
  else if ← refusesTime claims "nbf" fun n => n ≤ secondsOf present then pure true
  else pure (secondsOf expiry < secondsOf present || refusesNames claims)

/-- The caller that the claims describe, under the names that a caller's fields have. -/
def callerFields (claims : Fields) : Fields := [
  ("user_id", claims.look "sub"), ("solution_id", claims.look "sol"),
  ("organization_id", claims.look "org"), ("solution_owner_id", claims.look "sol_owner"),
  ("privileges",
    if (claims.look "privileges").given then claims.look "privileges" else .obj [])]

/-- The caller that claims describe, if they name a user and a solution. -/
def callerOf (claims : Fields) (g : GuidSupply) : Option CallerContext × GuidSupply :=
  if !(claims.look "sub").given || !(claims.look "sol").given then (none, g)
  else
    match CallerContext.check (.obj (callerFields claims)) g with
    | (.accepted c, g) => (some c, g)
    | (.rejected _, g) => (none, g)

/-- The caller of a token: nobody when it is not sound, has expired, or does not say who calls. -/
def caller (t : Token) (g : GuidSupply) : Except Breakage (Option CallerContext) × GuidSupply :=
  match t with
  | .absent | .unsound => (.ok none, g)
  | .noText => (.error .notAnObject, g)
  | .signed claims expiry =>
    match isRefused claims expiry with
    | .error b => (.error b, g)
    | .ok true => (.ok none, g)
    | .ok false =>
      let (caller, g) := callerOf claims g
      (.ok caller, g)

end Token

end TenantSearch
