import VideoComments.Text.Utf8

/-!
# Endpoints

The targets to which telemetry may be sent: a path; an authority; or a scheme, an authority and a
path. Checked here is only which characters stand where, on the bytes of a text; ports and hosts are
not looked into.
-/

namespace VideoComments.Endpoint

/-- The byte of a character. -/
def byte (c : Char) : UInt8 := UInt8.ofNat c.toNat

/-- Is the byte a letter or a digit? -/
def isAlphanumeric (b : UInt8) : Bool :=
  (0x30 ≤ b && b ≤ 0x39) || (0x41 ≤ b && b ≤ 0x5A) || (0x61 ≤ b && b ≤ 0x7A)

/-! ## Schemes -/

/-- The longest scheme. -/
def maxSchemeLength : Nat := 64

/-- May the byte stand in a scheme? -/
def isSchemeByte (b : UInt8) : Bool := isAlphanumeric b || "+-.~".toList.any fun c => byte c = b

/-- The two schemes that are recognised in any letter case. -/
def commonSchemes : List (List UInt8) := ["http://", "https://"].map Utf8.encode

/-- A byte with upper-case letters made lower-case. -/
def lower (b : UInt8) : UInt8 := if 0x41 ≤ b && b ≤ 0x5A then b + 0x20 else b

/-- What follows the scheme, if there is one; none at all when the scheme is too long. -/
def splitScheme? (bytes : List UInt8) : Option (Bool × List UInt8) :=
  match commonSchemes.find? fun s => (bytes.take s.length).map lower = s with
  | some s => some (true, bytes.drop s.length)
  | none =>
    let name := bytes.takeWhile isSchemeByte
    match bytes.dropWhile isSchemeByte with
    | 0x3A :: 0x2F :: 0x2F :: rest =>
      if maxSchemeLength < name.length then none else some (true, rest)
    | _ => some (false, bytes)

/-! ## Authorities -/

/-- Does the byte end an authority? -/
def endsAuthority (b : UInt8) : Bool := b = byte '/' || b = byte '?' || b = byte '#'

/-- May the byte stand in an authority? -/
def isAuthorityByte (b : UInt8) : Bool :=
  isAlphanumeric b || "!$&'()*+,-.:;=@[]_~%".toList.any fun c => byte c = b

/-- What has been met in an authority. Colons and percent signs count from the last at sign or
closing bracket on. -/
structure Scan where
  colons : Nat := 0
  opened : Bool := false
  closed : Bool := false
  percent : Bool := false
  deriving DecidableEq

/-- The most colons that may stand together. -/
def maxColons : Nat := 8

/-- One more byte of an authority. -/
def Scan.next? (s : Scan) (b : UInt8) : Option Scan :=
  if !isAuthorityByte b then none
  else if b = byte ':' then
    if maxColons ≤ s.colons then none else some { s with colons := s.colons + 1 }
  else if b = byte '[' then
    if s.percent || s.opened then none else some { s with opened := true }
  else if b = byte ']' then
    if !s.opened || s.closed then none
    else some { s with closed := true, colons := 0, percent := false }
  else if b = byte '@' then some { s with colons := 0, percent := false }
  else if b = byte '%' then some { s with percent := true }
  else some s

/-- Are these bytes an authority? It may be empty. -/
def isAuthority (bytes : List UInt8) : Bool :=
  match bytes.foldlM Scan.next? {} with
  | none => false
  | some s =>
    s.opened = s.closed && s.colons ≤ 1 && !s.percent && bytes.getLast? ≠ some (byte '@')

/-! ## Paths and queries -/

/-- May the byte stand in a query? -/
def isQueryByte (b : UInt8) : Bool :=
  b = 0x21 || (0x24 ≤ b && b ≤ 0x3B) || b = 0x3D || (0x3F ≤ b && b ≠ 0x7F)

/-- May the byte stand in a path? -/
def isPathByte (b : UInt8) : Bool :=
  b = byte '"' || (isQueryByte b && b ≠ byte '?' && b ≠ byte '`')

/-- Are these bytes a path with an optional query? A fragment is not looked at. -/
def isPathAndQuery (bytes : List UInt8) : Bool :=
  let body := bytes.takeWhile (· ≠ byte '#')
  (body.takeWhile (· ≠ byte '?')).all isPathByte &&
    ((body.dropWhile (· ≠ byte '?')).drop 1).all isQueryByte

/-! ## Whole endpoints -/

/-- The longest endpoint. -/
def maxLength : Nat := UInt16.size - 2

/-- Is the text a target? -/
def isValid (s : String) : Bool :=
  let bytes := Utf8.encode s
  if bytes = [] ∨ maxLength < bytes.length then false
  else if bytes = [byte '*'] then true
  else if bytes.head? = some (byte '/') then isPathAndQuery bytes
  else
    match splitScheme? bytes with
    | none => false
    | some (hasScheme, rest) =>
      let authority := rest.takeWhile (!endsAuthority ·)
      let path := rest.dropWhile (!endsAuthority ·)
      if hasScheme then authority ≠ [] && isAuthority authority && isPathAndQuery path
      else isAuthority authority && path = []

end VideoComments.Endpoint
