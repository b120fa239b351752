import VideoComments.Failure
import VideoComments.Net.Url

/-!
# Where a Redis server is

The locator of a Redis server names a host and a port, or the path of a socket; a database by its
number; a user and a password; and a version of the protocol.
-/

namespace VideoComments.Redis

/-- How a server is reached. -/
inductive Address
  | tcp (host : Host) (port : Nat)
  | socket (path : String)
  deriving DecidableEq

/-- The text of an address. -/
def Address.text : Address → String
  | tcp host port => host.text ++ ":" ++ Decimal.ofNat port
  | socket path => path

/-- The versions of the protocol. -/
inductive Protocol
  | resp2
  | resp3
  deriving DecidableEq

/-- The name of a version. -/
def Protocol.name : Protocol → String
  | resp2 => "RESP2"
  | resp3 => "RESP3"

/-- What a locator says about a server. -/
structure Location where
  address : Address
  database : Int := 0
  username : Option String := none
  password : Option String := none
  protocol : Protocol := .resp2
  deriving DecidableEq

namespace Location

/-- The schemes of servers that are reached over the network. -/
def networkSchemes : List String := ["redis", "valkey"]

/-- The schemes of servers that are reached over an encrypted connection. -/
def encryptedSchemes : List String := ["rediss", "valkeys"]

/-- The schemes of servers that are reached by a socket. -/
def socketSchemes : List String := ["unix", "redis+unix", "valkey+unix"]

/-- The port of a server whose locator names none. -/
def defaultPort : Nat := 6379

/-- The error of a locator that is refused, with a detail if there is one. -/
def refusal (summary : String) (detail : Option String) : CacheError :=
  .described summary "InvalidClientConfig" detail

/-- The number of a database. -/
def databaseNumber (cs : List Char) : Except CacheError Int :=
  match Decimal.int64? cs with
  | some n => .ok n
  | none => .error (refusal "Invalid database number" none)

/-- The version of the protocol that a query asks for. -/
def protocolOf (u : Url) : Except CacheError Protocol :=
  match u.query? "protocol" with
  | none => .ok .resp2
  | some "2" => .ok .resp2
  | some "resp2" => .ok .resp2
  | some "3" => .ok .resp3
  | some "resp3" => .ok .resp3
  | some other => .error (refusal "Invalid protocol version" (some other))

/-- A part of the credentials, its escapes read as bytes. -/
def credential (what : String) (cs : List Char) : Except CacheError String :=
  match Utf8.decode? (Percent.decodeChars cs) with
  | some s => .ok s
  | none => .error (refusal (what ++ " is not valid UTF-8 string") none)

/-- A server that is reached over the network. -/
def ofNetwork (u : Url) : Except CacheError Location := do
  match u.host with
  | none => throw (refusal "Missing hostname" none)
  | some host =>
    if encryptedSchemes.contains u.scheme then
      throw (refusal "can't connect with TLS, the feature is not enabled" none)
    let path := u.trimmedPath
    let database ← if path = [] then pure 0 else databaseNumber path
    let username ← if u.username = [] then pure none else some <$> credential "Username" u.username
    let password ← u.password.mapM (credential "Password")
    let protocol ← protocolOf u
    let address := .tcp host (u.port.getD defaultPort)
    return { address, database, username, password, protocol }

/-- The path of a socket. A path that ends like the name of a drive gets a slash. -/
def socketPath? (u : Url) : Option String :=
  match u.host, u.segments with
  | some (.name "localhost"), some (s :: rest) => some (join (s :: rest))
  | none, some (s :: rest) => some (join (s :: rest))
  | _, _ => none
where
  /-- The segments, each behind a slash. -/
  join (segments : List (List Char)) : String :=
    let path := Utf8.decodeLossy (segments.flatMap fun s => 0x2F :: Percent.decodeChars s)
    match path.reverse with
    | mark :: letter :: _ :: _ =>
      if letter.isAlpha ∧ (mark = ':' ∨ mark = '|') then String.ofList (path ++ ['/'])
      else String.ofList path
    | _ => String.ofList path

/-- A server that is reached by a socket. -/
def ofSocket (u : Url) : Except CacheError Location := do
  match socketPath? u with
  | none => throw (refusal "Missing path" none)
  | some path =>
    let database ← match u.query? "db" with
      | none => pure 0
      | some db => databaseNumber db.toList
    let protocol ← protocolOf u
    return {
      address := .socket path
      database
      username := u.query? "user"
      password := u.query? "pass"
      protocol }

/-- What the locator of a server says. -/
def ofText (s : String) : Except CacheError Location :=
  match Url.parse? s.toList with
  | none => .error (refusal "Redis URL did not parse" none)
  | some u =>
    if networkSchemes.contains u.scheme ∨ encryptedSchemes.contains u.scheme then ofNetwork u
    else if socketSchemes.contains u.scheme then ofSocket u
    else .error (refusal "Redis URL did not parse" none)

end Location

end VideoComments.Redis
