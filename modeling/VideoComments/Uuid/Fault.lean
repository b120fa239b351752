import VideoComments.Text.Decimal
import VideoComments.Text.Utf8
import VideoComments.Uuid.Spelling

/-!
# Why a text spells no identifier

A text that spells no identifier is looked at once more for a reason to report: a character that is
neither digit nor hyphen, a wrong number of groups, a group of the wrong length, or a wrong total
length. Lengths and positions count UTF-8 bytes.

The core of a text is the text itself when it is 36 bytes long, and the 36 bytes inside braces or
after the registered name. A core is looked at as hyphenated groups; any other text is looked at
whole, its braces or its registered name set aside.
-/

namespace VideoComments.Uuid

/-- Why a text spells no identifier. -/
inductive Fault
  | character (found : Char) (index : Nat)
  | length (found : Nat)
  | groupCount (found : Nat)
  | groupLength (group expected found : Nat)
  deriving DecidableEq

/-- The wording of a fault. -/
def Fault.message : Fault → String
  | .character found index =>
    "invalid character: found `" ++ String.ofList [found] ++ "` at " ++ Decimal.ofNat index
  | .length found => "invalid length: found " ++ Decimal.ofNat found
  | .groupCount found => "invalid group count: expected 5, found " ++ Decimal.ofNat found
  | .groupLength group expected found =>
    "invalid group length in group " ++ Decimal.ofNat group ++ ": expected " ++
      Decimal.ofNat expected ++ ", found " ++ Decimal.ofNat found

/-- The positions of the hyphens in a text whose first character is at `index`, or the first
character that is neither digit nor hyphen. -/
def hyphenPositions (index : Nat) : List Char → Except Fault (List Nat)
  | [] => .ok []
  | c :: cs =>
    if Hex.isDigit c then hyphenPositions (index + c.utf8Size) cs
    else if c = '-' then (hyphenPositions (index + c.utf8Size) cs).map (index :: ·)
    else .error (.character c index)

/-- Where the first four groups end, and where each starts. -/
def groupEnds : List (Nat × Nat) := [(8, 0), (13, 9), (18, 14), (23, 19)]

/-- The first of the groups, numbered from `group`, that does not end where it should. -/
def misplaced? (group : Nat) : List Nat → List (Nat × Nat) → Option Fault
  | p :: ps, (stop, start) :: ends =>
    if p = stop then misplaced? (group + 1) ps ends
    else some (.groupLength group (stop - start) (p - start))
  | _, _ => none

/-- The fault of `body`, which stands at `start` in a text of `size` bytes; `grouped` when the text
is known to be meant as groups. -/
def inspect (size start : Nat) (grouped : Bool) (body : List Char) : Fault :=
  match hyphenPositions start body with
  | .error fault => fault
  | .ok hyphens =>
    if hyphens.isEmpty && !grouped then .length size
    else if hyphens.length ≠ 4 then .groupCount (hyphens.length + 1)
    else (misplaced? 0 (hyphens.map (· - start)) groupEnds).getD (.groupLength 4 12 (size - 24))

/-- The 36 bytes that are meant as hyphenated groups. -/
def core? (cs : List Char) : Option (List Char) :=
  match Utf8.length cs with
  | 36 => some cs
  | 38 => unbraced? cs
  | 45 => unregistered? cs
  | _ => none

/-- The reason why a text spells no identifier. -/
def diagnose (cs : List Char) : Fault :=
  match core? cs with
  | some core => inspect (Utf8.length core) 0 true core
  | none =>
    let size := Utf8.length cs
    if size = 0 ∨ 45 < size then .length size
    else match unbraced? cs, unregistered? cs with
      | some body, _ => inspect size 1 true body
      | none, some body => inspect size namespaceName.length true body
      | none, none => inspect size 0 false cs

/-- The identifier that a text spells, or the reason why it spells none. -/
def ofText (s : String) : Except Fault Uuid :=
  match parse? s.toList with
  | some u => .ok u
  | none => .error (diagnose s.toList)

end VideoComments.Uuid
