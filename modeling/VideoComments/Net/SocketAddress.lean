import VideoComments.Net.Ip

/-!
# Socket addresses

An internet address with a port. An IPv6 address stands in brackets and may have a scope, which is
not written when it is zero. Leading zeros are read in ports and scopes.
-/

namespace VideoComments

/-- An address on which a server listens. -/
inductive SocketAddress
  | v4 (ip : Ipv4) (port : UInt16)
  | v6 (ip : Ipv6) (scope : UInt32) (port : UInt16)
  deriving DecidableEq

namespace SocketAddress

/-- The characters of an address. -/
def toList : SocketAddress → List Char
  | v4 ip port => ip.toList ++ ':' :: Decimal.digits port.toNat
  | v6 ip scope port =>
    '[' :: ip.toList ++ (if scope = 0 then [] else '%' :: Decimal.digits scope.toNat) ++
      ']' :: ':' :: Decimal.digits port.toNat

/-- The text of an address. -/
def text (a : SocketAddress) : String := String.ofList a.toList

/-- Reads digits that spell a number below a bound. -/
def below? (bound : Nat) (cs : List Char) : Option (Nat × List Char) :=
  match Decimal.natural? (cs.takeWhile Decimal.isDigit) with
  | some n => if n < bound then some (n, cs.dropWhile Decimal.isDigit) else none
  | none => none

/-- Reads a port behind a colon. -/
def port? : List Char → Option (UInt16 × List Char)
  | ':' :: cs => (below? UInt16.size cs).map fun r => (UInt16.ofNat r.1, r.2)
  | _ => none

/-- Reads a scope behind a percent sign; without one the scope is zero. -/
def scope? : List Char → Option (UInt32 × List Char)
  | '%' :: cs => (below? UInt32.size cs).map fun r => (UInt32.ofNat r.1, r.2)
  | cs => some (0, cs)

/-- Reads an IPv4 address with a port. -/
def readV4? (cs : List Char) : Option (SocketAddress × List Char) := do
  let (ip, cs) ← Ipv4.read? cs
  let (port, cs) ← port? cs
  return (v4 ip port, cs)

/-- Reads an IPv6 address in brackets with a port. -/
def readV6? : List Char → Option (SocketAddress × List Char)
  | '[' :: cs => do
    let (ip, cs) ← Ipv6.read? cs
    let (scope, cs) ← scope? cs
    match cs with
    | ']' :: cs =>
      let (port, cs) ← port? cs
      return (v6 ip scope port, cs)
    | _ => none
  | _ => none

/-- The address that a list of characters spells. -/
def ofList? (cs : List Char) : Option SocketAddress :=
  match readV4? cs <|> readV6? cs with
  | some (a, []) => some a
  | _ => none

/-- The address that a text spells. -/
def ofText? (s : String) : Option SocketAddress := ofList? s.toList

end SocketAddress

end VideoComments
