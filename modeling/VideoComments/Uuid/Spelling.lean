import VideoComments.Uuid

/-!
# The four spellings of an identifier

An identifier is spelled as 32 hexadecimal digits; as groups of 8, 4, 4, 4 and 12 digits with
hyphens between them; as such groups in braces; or as such groups after `urn:uuid:` in any letter
case. Digits are of either case. No other text spells an identifier.
-/

namespace VideoComments.Uuid

/-- Reads exactly `n` digits. -/
def takeDigits : Nat → List Char → Option (List Nat × List Char)
  | 0, cs => some ([], cs)
  | _ + 1, [] => none
  | n + 1, c :: cs =>
    match Hex.digit? c, takeDigits n cs with
    | some d, some (ds, rest) => some (d :: ds, rest)
    | _, _ => none

/-- Reads groups of digits of the given lengths, a hyphen between each two, up to the end. -/
def takeGroups : List Nat → List Char → Option (List Nat)
  | [], cs => if cs = [] then some [] else none
  | [n], cs =>
    match takeDigits n cs with
    | some (ds, []) => some ds
    | _ => none
  | n :: ns, cs =>
    match takeDigits n cs with
    | some (ds, '-' :: rest) => (takeGroups ns rest).map (ds ++ ·)
    | _ => none

/-- Thirty-two digits in a row. -/
def plain? (cs : List Char) : Option (List Nat) := takeGroups [32] cs

/-- Five groups with hyphens between them. -/
def hyphenated? (cs : List Char) : Option (List Nat) := takeGroups groupLengths cs

/-- The text between braces. -/
def unbraced? : List Char → Option (List Char)
  | '{' :: cs => if cs.getLast? = some '}' then some cs.dropLast else none
  | _ => none

/-- The name under which identifiers are registered, in lower case. -/
def namespaceName : List Char := "urn:uuid:".toList

/-- The text after the registered name, which may be in any letter case. -/
def unregistered? (cs : List Char) : Option (List Char) :=
  if (cs.take namespaceName.length).map Char.toLower = namespaceName then
    some (cs.drop namespaceName.length)
  else none

/-- The digits of an identifier in one of its four spellings. -/
def spelled? (cs : List Char) : Option (List Nat) :=
  plain? cs <|> hyphenated? cs <|> (unbraced? cs).bind hyphenated? <|>
    (unregistered? cs).bind hyphenated?

/-- The identifier that a text spells. -/
def parse? (cs : List Char) : Option Uuid := (spelled? cs).map fun ds => ofNat (Hex.ofDigits ds)

end VideoComments.Uuid
