-- How the service is set up. Settings come from an environment of named texts; the names
-- are compared without case, and every text is read by the type of its setting. A
-- setting that is changed while the service runs holds whatever it was changed to, and
-- is only looked at where it is used.
import TenantSearch.Failure
import TenantSearch.Json.Unchecked
import TenantSearch.Text.Case

namespace TenantSearch

structure Settings where
  databaseServer : Json := .str ""
  databaseName : Json := .str ""
  databaseUser : Json := .str ""
  databasePassword : Json := .str ""
  databasePort : Json := .int 5432
  poolSize : Json := .int 20
  poolOverflow : Json := .int 40
  echoQueries : Json := .bool false
  engineUrl : Json := .str "http://localhost:9200"
  engineKey : Json := .str ""
  engineTimeout : Json := .float (.ofDecimal false 10 0)
  tokenSecret : Json := .str ""
  tokenAlgorithm : Json := .str "HS256"
  tokenMinutes : Json := .int 1440
  host : Json := .str "0.0.0.0"
  port : Json := .int 8000
  queueUrl : Json := .str "redis://localhost:6379/0"
  defaultPage : Json := .int 10
  largestPage : Json := .int 100
  aggregateSize : Json := .int 10000
  preTag : Json := .str "<span class=\"search-highlight\">"
  postTag : Json := .str "</span>"
  cutoffMinutes : Json := .int 60
  reindexPage : Json := .int 100
  reindexOnRecreate : Json := .bool true
  reindexMinutes : Json := .str "0,30"
deriving Repr

namespace Settings

/-! ## Single settings by name -/

/-- All settings with their names, in order. -/
def entries (s : Settings) : Fields := [
  ("db_server", s.databaseServer), ("db_name", s.databaseName), ("db_user", s.databaseUser),
  ("db_password", s.databasePassword), ("db_port", s.databasePort), ("db_pool_size", s.poolSize),
  ("db_max_overflow", s.poolOverflow), ("sql_echo", s.echoQueries),
  ("elasticsearch_url", s.engineUrl), ("elasticsearch_api_key", s.engineKey),
  ("elasticsearch_timeout", s.engineTimeout), ("jwt_secret", s.tokenSecret),
  ("jwt_algorithm", s.tokenAlgorithm), ("jwt_expiration_minutes", s.tokenMinutes),
  ("host", s.host), ("port", s.port), ("redis_url", s.queueUrl),
  ("search_default_page_size", s.defaultPage), ("search_max_page_size", s.largestPage),
  ("search_aggregate_size", s.aggregateSize), ("search_highlight_pre_tag", s.preTag),
  ("search_highlight_post_tag", s.postTag), ("reindex_cutoff_minutes", s.cutoffMinutes),
  ("reindex_page_size", s.reindexPage), ("reindex_on_recreate", s.reindexOnRecreate),
  ("arq_reindex_minutes", s.reindexMinutes)]

/-- The settings with one of them changed, when there is one of that name. -/
def change? (s : Settings) (name : String) (v : Json) : Option Settings :=
  match name with
  | "db_server" => some { s with databaseServer := v }
  | "db_name" => some { s with databaseName := v }
  | "db_user" => some { s with databaseUser := v }
  | "db_password" => some { s with databasePassword := v }
  | "db_port" => some { s with databasePort := v }
  | "db_pool_size" => some { s with poolSize := v }
  | "db_max_overflow" => some { s with poolOverflow := v }
  | "sql_echo" => some { s with echoQueries := v }
  | "elasticsearch_url" => some { s with engineUrl := v }
  | "elasticsearch_api_key" => some { s with engineKey := v }
  | "elasticsearch_timeout" => some { s with engineTimeout := v }
  | "jwt_secret" => some { s with tokenSecret := v }
  | "jwt_algorithm" => some { s with tokenAlgorithm := v }
  | "jwt_expiration_minutes" => some { s with tokenMinutes := v }
  | "host" => some { s with host := v }
  | "port" => some { s with port := v }
  | "redis_url" => some { s with queueUrl := v }
  | "search_default_page_size" => some { s with defaultPage := v }
  | "search_max_page_size" => some { s with largestPage := v }
  | "search_aggregate_size" => some { s with aggregateSize := v }
  | "search_highlight_pre_tag" => some { s with preTag := v }
  | "search_highlight_post_tag" => some { s with postTag := v }
  | "reindex_cutoff_minutes" => some { s with cutoffMinutes := v }
  | "reindex_page_size" => some { s with reindexPage := v }
  | "reindex_on_recreate" => some { s with reindexOnRecreate := v }
  | "arq_reindex_minutes" => some { s with reindexMinutes := v }
  | _ => none

/-- The settings with all of these changed, when there is one of each name. -/
def changeAll? (s : Settings) (changes : Fields) : Option Settings :=
  changes.foldlM (fun s f => s.change? f.1 f.2) s

/-! ## Reading an environment -/

def checkDouble (path : List PathStep) (v : Json) : Checked Double :=
  match v with
  | .str s =>
    match formDouble? s with
    | some d => .accepted d
    | none => .flaw path v .unreadableDouble
  | _ => .flaw path v .unreadableDouble

/-- The environment under lower-case names; of two spellings of a name the later counts. -/
def folded (environment : Fields) : Fields :=
  environment.foldl (fun fields f => Fields.set fields (lower f.1) f.2) []

/-- The settings that an environment describes. -/
def read (environment : Fields) : Checked Settings :=
  let given := folded environment
  let standard : Settings := {}
  let text (name : String) (absent : Option Json) : Checked Json :=
    (FieldName.only name).check [] given absent fun path v => .str <$> Check.text path v
  let whole (name : String) (absent : Json) : Checked Json :=
    (FieldName.only name).check [] given (some absent) fun path v => .int <$> Check.whole path v
  let flag (name : String) (absent : Json) : Checked Json :=
    (FieldName.only name).check [] given (some absent) fun path v => .bool <$> Check.boolean path v
  let double (name : String) (absent : Json) : Checked Json :=
    (FieldName.only name).check [] given (some absent) fun path v => .float <$> checkDouble path v
  Settings.mk <$> text "db_server" none
    <*> text "db_name" none
    <*> text "db_user" none
    <*> text "db_password" none
    <*> whole "db_port" standard.databasePort
    <*> whole "db_pool_size" standard.poolSize
    <*> whole "db_max_overflow" standard.poolOverflow
    <*> flag "sql_echo" standard.echoQueries
    <*> text "elasticsearch_url" standard.engineUrl
    <*> text "elasticsearch_api_key" standard.engineKey
    <*> double "elasticsearch_timeout" standard.engineTimeout
    <*> text "jwt_secret" none
    <*> text "jwt_algorithm" standard.tokenAlgorithm
    <*> whole "jwt_expiration_minutes" standard.tokenMinutes
    <*> text "host" standard.host
    <*> whole "port" standard.port
    <*> text "redis_url" standard.queueUrl
    <*> whole "search_default_page_size" standard.defaultPage
    <*> whole "search_max_page_size" standard.largestPage
    <*> whole "search_aggregate_size" standard.aggregateSize
    <*> text "search_highlight_pre_tag" standard.preTag
    <*> text "search_highlight_post_tag" standard.postTag
    <*> whole "reindex_cutoff_minutes" standard.cutoffMinutes
    <*> whole "reindex_page_size" standard.reindexPage
    <*> flag "reindex_on_recreate" standard.reindexOnRecreate
    <*> text "arq_reindex_minutes" standard.reindexMinutes

/-! ## What was set at the start -/

/-- What forms take a missing field to be: the settings of the moment at which the service
started. -/
structure FormDefaults where
  page : Int := 10
  preTag : String := "<span class=\"search-highlight\">"
  postTag : String := "</span>"
  reindexPage : Int := 100
deriving DecidableEq, Repr

/-! ## The database address -/

/-- The characters that a password keeps in an address. -/
def isPlainByte (n : Nat) : Bool :=
  (48 ≤ n && n ≤ 57) || (65 ≤ n && n ≤ 90) || (97 ≤ n && n ≤ 122) ||
    n == 45 || n == 46 || n == 95 || n == 126

/-- One byte of a password: as it is, a plus for a space, or its number after a percent sign. -/
def escapedByte (b : UInt8) : List Char :=
  let n := b.toNat
  if isPlainByte n then [Char.ofNat n]
  else if n = 32 then ['+']
  else '%' :: (hexPadded 2 n).map Char.toUpper

/-- A password as it stands in an address; a lone surrogate cannot. -/
def escapedPassword (s : String) : Except Breakage String :=
  if hasSurrogate s then .error .unwritableText
  else .ok (String.ofList (s.toUTF8.toList.flatMap escapedByte))

/-- The address of the database under a driver. -/
def databaseAddress (s : Settings) (driver : String) : Except Breakage String := do
  let password ← escapedPassword s.databasePassword.text
  pure ("postgresql+" ++ driver ++ "://" ++ s.databaseUser.text ++ ":" ++ password ++ "@" ++
    s.databaseServer.text ++ ":" ++ s.databasePort.text ++ "/" ++ s.databaseName.text)

/-- All settings and the two database addresses as an object. -/
def object (s : Settings) : Except Breakage Json := do
  pure (.obj (s.entries ++
    [("database_url", .str (← s.databaseAddress "asyncpg")),
      ("sync_database_url", .str (← s.databaseAddress "psycopg2"))]))

end Settings

end TenantSearch
