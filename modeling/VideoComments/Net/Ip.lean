import VideoComments.Text.Decimal
import VideoComments.Text.Hex

/-!
# Internet addresses

* `Ipv4` is four bytes, written and read as four decimal numbers without leading zeros.
* `Ipv6` is eight groups of sixteen bits. The longest run of two or more zero groups, the first one
  if several are longest, is written as two colons; an address that stands for an IPv4 address ends
  with that address. Reading takes the colons in place of any run of at least one zero group, up to
  four digits of either case in a group, and an IPv4 address for the last two groups.
-/

namespace VideoComments

/-! ## Four bytes -/

/-- An IPv4 address. -/
structure Ipv4 where
  a : UInt8
  b : UInt8
  c : UInt8
  d : UInt8
  deriving DecidableEq

namespace Ipv4

/-- The characters of an address. -/
def toList (ip : Ipv4) : List Char :=
  let part (x : UInt8) : List Char := Decimal.digits x.toNat
  part ip.a ++ '.' :: part ip.b ++ '.' :: part ip.c ++ '.' :: part ip.d

/-- Reads one part of an address: at most three digits, none of them a leading zero. -/
def part? (cs : List Char) : Option (UInt8 × List Char) :=
  let ds := cs.takeWhile Decimal.isDigit
  let rest := cs.dropWhile Decimal.isDigit
  if 3 < ds.length ∨ (1 < ds.length ∧ ds.head? = some '0') then none
  else
    match Decimal.natural? ds with
    | some n => if n < 256 then some (UInt8.ofNat n, rest) else none
    | none => none

/-- Reads one part behind a point. -/
def nextPart? : List Char → Option (UInt8 × List Char)
  | '.' :: cs => part? cs
  | _ => none

/-- Reads an address, and gives what follows it. -/
def read? (cs : List Char) : Option (Ipv4 × List Char) := do
  let (a, cs) ← part? cs
  let (b, cs) ← nextPart? cs
  let (c, cs) ← nextPart? cs
  let (d, cs) ← nextPart? cs
  return ({ a, b, c, d }, cs)

/-- An address as two groups of sixteen bits. -/
def groups (ip : Ipv4) : List UInt16 :=
  [ip.a.toUInt16 * 256 + ip.b.toUInt16, ip.c.toUInt16 * 256 + ip.d.toUInt16]

/-- The address in two groups of sixteen bits. -/
def ofGroups (g h : UInt16) : Ipv4 :=
  { a := (g / 256).toUInt8, b := g.toUInt8, c := (h / 256).toUInt8, d := h.toUInt8 }

end Ipv4

/-! ## Eight groups -/

/-- An IPv6 address. -/
structure Ipv6 where
  groups : List UInt16
  length_eq : groups.length = 8
  deriving DecidableEq

namespace Ipv6

/-- The address of a list of groups, if there are eight of them. -/
def ofGroups? (gs : List UInt16) : Option Ipv6 :=
  if h : gs.length = 8 then some ⟨gs, h⟩ else none

/-! ### Writing -/

/-- A run of zero groups: where it starts and how long it is. -/
structure ZeroRun where
  start : Nat
  length : Nat
  deriving DecidableEq

/-- The longest run of zero groups from position `i` on, `current` ending right before it and `best`
being the longest so far; of equal runs the first is kept. -/
def longestRun (i : Nat) (current best : ZeroRun) : List UInt16 → ZeroRun
  | [] => best
  | g :: gs =>
    if g = 0 then
      let current := if current.length = 0 then ⟨i, 1⟩ else ⟨current.start, current.length + 1⟩
      longestRun (i + 1) current (if best.length < current.length then current else best) gs
    else longestRun (i + 1) ⟨0, 0⟩ best gs

/-- Groups with colons between them. -/
def joinGroups (gs : List UInt16) : List Char :=
  ((gs.map fun g => Hex.digits g.toNat).intersperse [':']).flatten

/-- The IPv4 address that an address stands for. -/
def mapped? (ip : Ipv6) : Option Ipv4 :=
  match ip.groups with
  | [0, 0, 0, 0, 0, 0xFFFF, g, h] => some (.ofGroups g h)
  | _ => none

/-- The characters of an address. -/
def toList (ip : Ipv6) : List Char :=
  match ip.mapped? with
  | some v4 => "::ffff:".toList ++ v4.toList
  | none =>
    let run := longestRun 0 ⟨0, 0⟩ ⟨0, 0⟩ ip.groups
    if 1 < run.length then
      joinGroups (ip.groups.take run.start) ++ [':', ':'] ++
        joinGroups (ip.groups.drop (run.start + run.length))
    else joinGroups ip.groups

/-! ### Reading -/

/-- Reads a group of one to four digits. -/
def group? (cs : List Char) : Option (UInt16 × List Char) :=
  let ds := cs.takeWhile Hex.isDigit
  if ds.length = 0 ∨ 4 < ds.length then none
  else some (UInt16.ofNat (Hex.ofDigits (ds.filterMap Hex.digit?)), cs.dropWhile Hex.isDigit)

/-- What follows the colon before a group; the first group has none. -/
def afterColon? (first : Bool) (cs : List Char) : Option (List Char) :=
  if first then some cs
  else
    match cs with
    | ':' :: rest => some rest
    | _ => none

/-- Groups that have been read, whether the last two are an IPv4 address, and what follows. -/
structure Groups where
  groups : List UInt16
  endsInIpv4 : Bool
  rest : List Char

/-- Reads as many groups as there are, `room` of them at most. Two groups may be written as an IPv4
address, which ends the reading. -/
def readGroups : (room : Nat) → (first : Bool) → List Char → Groups
  | 0, _, cs => ⟨[], false, cs⟩
  | room + 1, first, cs =>
    match afterColon? first cs with
    | none => ⟨[], false, cs⟩
    | some body =>
      match if 0 < room then Ipv4.read? body else none with
      | some (v4, rest) => ⟨v4.groups, true, rest⟩
      | none =>
        match group? body with
        | none => ⟨[], false, cs⟩
        | some (g, rest) =>
          let more := readGroups room false rest
          { more with groups := g :: more.groups }

/-- Reads an address, and gives what follows it. -/
def read? (cs : List Char) : Option (Ipv6 × List Char) :=
  let head := readGroups 8 true cs
  if head.groups.length = 8 then (ofGroups? head.groups).map (·, head.rest)
  else if head.endsInIpv4 then none
  else
    match head.rest with
    | ':' :: ':' :: rest =>
      let tail := readGroups (7 - head.groups.length) true rest
      let zeros := List.replicate (8 - head.groups.length - tail.groups.length) 0
      (ofGroups? (head.groups ++ zeros ++ tail.groups)).map (·, tail.rest)
    | _ => none

end Ipv6

end VideoComments
