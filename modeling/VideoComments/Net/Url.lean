import VideoComments.Net.Ip
import VideoComments.Text.Percent

/-!
# Resource locators

Locators of servers: a scheme, an authority with user, password, host and port, a path and a query.
They are read as the living standard for locators reads those whose scheme has no rules of its own:
space at either end is trimmed, tabs and line ends are dropped, dots in the path are resolved, and
whatever cannot be told apart is refused.
-/

namespace VideoComments

/-- The host of a locator. -/
inductive Host
  /-- A name, with what is not printable ASCII percent-encoded. -/
  | name (text : String)
  | ipv6 (ip : Ipv6)
  deriving DecidableEq

/-- The text of a host; an IPv6 address stands without brackets. -/
def Host.text : Host → String
  | name s => s
  | ipv6 ip => String.ofList ip.toList

/-- A locator. Its parts are kept as they are written. -/
structure Url where
  scheme : String
  username : List Char := []
  password : Option (List Char) := none
  host : Option Host := none
  port : Option Nat := none
  /-- The segments of a path that starts with a slash; a path that does not is opaque. -/
  segments : Option (List (List Char)) := none
  query : List Char := []

namespace Url

/-! ## Characters -/

/-- Drops what does not count: control characters and spaces at either end, tabs and line ends
anywhere. -/
def clean (cs : List Char) : List Char :=
  let isEdge (c : Char) : Bool := c.toNat ≤ 0x20
  let trimmed := ((cs.dropWhile isEdge).reverse.dropWhile isEdge).reverse
  trimmed.filter fun c => c ≠ '\t' && c ≠ '\n' && c ≠ '\r'

/-- Does the character end an authority? -/
def endsAuthority (c : Char) : Bool := c = '/' || c = '?' || c = '#'

/-- May the character stand in a scheme after the first? -/
def isSchemeChar (c : Char) : Bool := c.isAlphanum || c = '+' || c = '-' || c = '.'

/-- Reads a scheme and the colon after it. Schemes are compared in lower case. -/
def scheme? (cs : List Char) : Option (String × List Char) :=
  let name := cs.takeWhile isSchemeChar
  match cs.head?, cs.dropWhile isSchemeChar with
  | some c, ':' :: rest =>
    if c.isAlpha then some (String.ofList (name.map Char.toLower), rest) else none
  | _, _ => none

/-! ## Authority -/

/-- Splits at the last character that satisfies `p`, which belongs to neither part. -/
def splitLast? (p : Char → Bool) (cs : List Char) : Option (List Char × List Char) :=
  let after := (cs.reverse.takeWhile (!p ·)).reverse
  if after.length < cs.length then some (cs.take (cs.length - after.length - 1), after) else none

/-- The user and the password before the at sign. An empty password is none. -/
def credentials (cs : List Char) : List Char × Option (List Char) :=
  let username := cs.takeWhile (· ≠ ':')
  let password := (cs.dropWhile (· ≠ ':')).drop 1
  (username, if password = [] then none else some password)

/-- The characters that no name of a host may hold. -/
def forbiddenInHost : List Char := "\x00\t\n\r #/:<>?@[\\]^|".toList

/-- Where a host ends: at a colon outside brackets. -/
def splitHost (bracketed : Bool) : List Char → List Char × List Char
  | [] => ([], [])
  | c :: cs =>
    if c = ':' ∧ !bracketed then ([], c :: cs)
    else
      let (host, rest) := splitHost (c = '[' || (bracketed && c ≠ ']')) cs
      (c :: host, rest)

/-- Reads a host that is not empty. -/
def host? (cs : List Char) : Option Host :=
  match cs with
  | '[' :: inner =>
    if inner.getLast? = some ']' then
      match Ipv6.read? inner.dropLast with
      | some (ip, []) => some (.ipv6 ip)
      | _ => none
    else none
  | _ =>
    if cs.any forbiddenInHost.contains then none
    else
      let isPlain (b : UInt8) : Bool := 0x20 ≤ b && b < 0x7F
      some (.name (String.ofList (Percent.encode isPlain (String.ofList cs))))

/-- Reads a port: digits up to a backslash or the end. No digits are no port. -/
def port? (cs : List Char) : Option (Option Nat × List Char) :=
  let digits := cs.takeWhile Decimal.isDigit
  let rest := cs.dropWhile Decimal.isDigit
  if rest ≠ [] ∧ rest.head? ≠ some '\\' then none
  else
    match Decimal.natural? digits with
    | none => some (none, rest)
    | some n => if n < UInt16.size then some (some n, rest) else none

/-- An authority, and what is left of it for the path. -/
structure Authority where
  username : List Char
  password : Option (List Char)
  host : Option Host
  port : Option Nat
  rest : List Char

/-- Reads host and port behind the given credentials. Credentials or a port need a host. -/
def hostAndPort? (username : List Char) (password : Option (List Char)) (cs : List Char) :
    Option Authority :=
  let (name, rest) := splitHost false cs
  if name = [] then
    if rest ≠ [] ∨ username ≠ [] ∨ password.isSome then none
    else some { username, password, host := none, port := none, rest := [] }
  else
    match host? name, port? (rest.drop 1) with
    | some host, some (port, rest) => some { username, password, host := some host, port, rest }
    | _, _ => none

/-- Reads an authority. Nothing before the at sign needs something after it, unless the locator
ends there. -/
def authority? (cs : List Char) (isLast : Bool) : Option Authority :=
  match splitLast? (· = '@') cs with
  | none => hostAndPort? [] none cs
  | some (before, after) =>
    if before = [] ∧ after = [] ∧ !isLast then none
    else
      let (username, password) := credentials before
      hostAndPort? username password after

/-! ## Path and query -/

/-- Splits at every slash. -/
def splitSlashes (cs : List Char) : List (List Char) := cs.splitOn '/'

/-- A segment with its escaped dots read as dots. -/
def plainDots : List Char → List Char
  | '%' :: '2' :: 'e' :: cs => '.' :: plainDots cs
  | '%' :: '2' :: 'E' :: cs => '.' :: plainDots cs
  | c :: cs => c :: plainDots cs
  | [] => []

/-- Does a segment name a drive, perhaps with a path behind a backslash? -/
def isDrive : List Char → Bool
  | letter :: mark :: rest =>
    letter.isAlpha && (mark = ':' || mark = '|') && (rest = [] || rest.head? = some '\\')
  | _ => false

/-- The segments, in reverse, one segment up; a drive is not left. -/
def parent (done : List (List Char)) : List (List Char) :=
  match done with
  | s :: before => if isDrive s then s :: before else before
  | [] => []

/-- Resolves segments of dots: one dot stays where it is, two dots go one segment up. At the end of
a path either leaves an empty segment. `done` holds the segments before, in reverse. -/
def resolveDots (done : List (List Char)) : List (List Char) → List (List Char)
  | [] => done.reverse
  | s :: rest =>
    let last := rest.isEmpty
    if plainDots s = ['.', '.'] then
      resolveDots (if last then [] :: parent done else parent done) rest
    else if plainDots s = ['.'] then resolveDots (if last then [] :: done else done) rest
    else resolveDots (s :: done) rest

/-- The segments of a path. An empty path has none. -/
def segmentsOf : List Char → List (List Char)
  | [] => []
  | '/' :: cs => resolveDots [] (splitSlashes cs)
  | cs => resolveDots [] (splitSlashes cs)

/-- Splits off the query, and drops the fragment. -/
def splitQuery (cs : List Char) : List Char × List Char :=
  let body := cs.takeWhile (· ≠ '#')
  (body.takeWhile (· ≠ '?'), (body.dropWhile (· ≠ '?')).drop 1)

/-! ## Whole locators -/

/-- Reads what follows the scheme. -/
def afterScheme? (scheme : String) (cs : List Char) : Option Url :=
  match cs with
  | '/' :: '/' :: cs =>
    let body := cs.takeWhile (!endsAuthority ·)
    let tail := cs.dropWhile (!endsAuthority ·)
    match authority? body tail.isEmpty with
    | none => none
    | some a =>
      let (path, query) := splitQuery tail
      some {
        scheme
        username := a.username
        password := a.password
        host := a.host
        port := a.port
        segments := some (segmentsOf (a.rest ++ path))
        query }
  | _ =>
    let (path, query) := splitQuery cs
    let segments := if path.head? = some '/' then some (segmentsOf path) else none
    some { scheme, segments, query }

/-- Reads a locator. -/
def parse? (cs : List Char) : Option Url :=
  (scheme? (clean cs)).bind fun r => afterScheme? r.1 r.2

/-- The path without the slashes at its ends. -/
def trimmedPath (u : Url) : List Char :=
  let path := ((u.segments.getD []).intersperse ['/']).flatten
  ((path.dropWhile (· = '/')).reverse.dropWhile (· = '/')).reverse

/-- A text in a query, its plus signs read as spaces and its escapes as bytes. -/
def formText (cs : List Char) : String :=
  let spaced := cs.map fun c => if c = '+' then ' ' else c
  String.ofList (Utf8.decodeLossy (Percent.decodeChars spaced))

/-- The names and values in a query. -/
def queryPairs (u : Url) : List (String × String) :=
  ((u.query.splitOn '&').filter (· ≠ [])).map fun pair =>
    (formText (pair.takeWhile (· ≠ '=')), formText ((pair.dropWhile (· ≠ '=')).drop 1))

/-- The value of a name in a query; the last one counts. -/
def query? (u : Url) (name : String) : Option String := u.queryPairs.reverse.lookup name

end Url

end VideoComments
