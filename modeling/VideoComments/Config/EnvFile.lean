import VideoComments.Config
import VideoComments.Text.Alphanumeric

/-!
# Files of variables

A file next to the service may set variables, one on a line: a name, an equals sign and a value,
with an optional `export` in front. Lines that are blank or start with a number sign are passed
over. Values may be quoted, may escape single characters, and may refer to variables with a dollar
sign.

The environment of the process wins over the file, and an earlier line over a later one. The first
line that cannot be read ends the reading; what came before it counts.
-/

namespace VideoComments.Config.EnvFile

/-! ## Values -/

/-- The values of variables that a file has set, the last one first. -/
abbrev Assignments := List (String × String)

/-- The value that a reference stands for: the environment's, else the file's, else nothing. -/
def referred (env : Environment) (done : Assignments) (name : List Char) : List Char :=
  let name := String.ofList name
  ((env.text? name <|> done.lookup name).getD "").toList

/-- The quotes that are open. -/
inductive Quote
  | none
  | single
  | double
  deriving DecidableEq

/-- A reference that is being read: whether it is in braces, and its name so far in reverse. The
name of one without braces is made of letters and numbers. -/
structure Reference where
  braced : Bool
  name : List Char

/-- How far the reading of a value has come; `out` is the value so far in reverse. -/
structure Reading where
  out : List Char := []
  quote : Quote := .none
  escaped : Bool := false
  reference : Option Reference := none
  /-- Only a remark may follow. -/
  ended : Bool := false
  /-- A remark has begun. -/
  remark : Bool := false

namespace Reading

/-- Writes a character of the value. -/
def push (r : Reading) (c : Char) : Reading := { r with out := c :: r.out }

/-- Ends a reference and writes what it stands for. -/
def resolve (r : Reading) (value : List Char → List Char) (ref : Reference) : Reading :=
  { r with out := (value ref.name.reverse).reverse ++ r.out, reference := none }

/-- Reads a character within a reference. -/
def refer (r : Reading) (value : List Char → List Char) (ref : Reference) (c : Char) : Reading :=
  if Alphanumeric.isMember c then { r with reference := some { ref with name := c :: ref.name } }
  else if ref.braced then
    if c = '}' then r.resolve value ref
    else { r with reference := some { ref with name := c :: ref.name } }
  else if c = '{' ∧ ref.name = [] then { r with reference := some { ref with braced := true } }
  else if c = '$' then { r.resolve value ref with reference := some ⟨false, []⟩ }
  else (r.resolve value ref).push c

/-- The character that an escape stands for. -/
def unescape? (c : Char) : Option Char :=
  if ['\\', '\'', '"', '$', ' '].contains c then some c else if c = 'n' then some '\n' else none

/-- Reads one character. -/
def next? (value : List Char → List Char) (r : Reading) (c : Char) : Option Reading :=
  if r.remark then some r
  else if r.ended then
    if c = ' ' ∨ c = '\t' then some r else if c = '#' then some { r with remark := true } else none
  else if r.escaped then (unescape? c).map fun c => { r.push c with escaped := false }
  else if r.quote = .single then
    some (if c = '\'' then { r with quote := .none } else r.push c)
  else
    match r.reference with
    | some ref => some (r.refer value ref c)
    | none =>
      some <|
        if c = '$' then { r with reference := some ⟨false, []⟩ }
        else if c = '\\' then { r with escaped := true }
        else if r.quote = .double then
          if c = '"' then { r with quote := .none } else r.push c
        else if c = '\'' then { r with quote := .single }
        else if c = '"' then { r with quote := .double }
        else if c = ' ' ∨ c = '\t' then { r with ended := true }
        else r.push c

/-- The value, at the end of the line. Quotes and braces have to be closed. -/
def finish? (value : List Char → List Char) (r : Reading) : Option (List Char) :=
  if r.quote ≠ .none then none
  else
    match r.reference with
    | none => some r.out.reverse
    | some ref => if ref.braced then none else some (r.resolve value ref).out.reverse

end Reading

/-- Reads the value on a line. -/
def value? (env : Environment) (done : Assignments) (cs : List Char) : Option String :=
  let value := referred env done
  ((cs.foldlM (Reading.next? value) {}).bind (Reading.finish? value)).map String.ofList

/-! ## Lines -/

/-- Drops white space. -/
def skipSpace (cs : List Char) : List Char := cs.dropWhile Blank.isSpace

/-- May the character stand in the name of a variable that is set? -/
def isKeyChar (c : Char) : Bool := c.isAlphanum || c = '_' || c = '.'

/-- Reads the name of a variable. -/
def name? (cs : List Char) : Option (List Char × List Char) :=
  match cs.head? with
  | some c =>
    if c.isAlpha ∨ c = '_' then some (cs.takeWhile isKeyChar, cs.dropWhile isKeyChar) else none
  | none => none

/-- What follows an equals sign. -/
def afterEquals? (cs : List Char) : Option (List Char) :=
  match skipSpace cs with
  | '=' :: rest => some rest
  | _ => none

/-- Reads the name of a variable and the equals sign, with an optional `export` in front. -/
def target? (cs : List Char) : Option (List Char × List Char) :=
  match name? cs with
  | none => none
  | some (name, rest) =>
    match afterEquals? rest with
    | some rest => some (name, rest)
    | none =>
      if name = "export".toList then
        (name? (skipSpace rest)).bind fun r => (afterEquals? r.2).map (r.1, ·)
      else none

/-- What a line does. -/
inductive Line
  | nothing
  | assignment (name value : String)
  | unreadable

/-- Is nothing, or only a remark, left of a line? -/
def isEmpty (cs : List Char) : Bool := cs = [] || cs.head? = some '#'

/-- Reads a line. -/
def line (env : Environment) (done : Assignments) (cs : List Char) : Line :=
  let cs := skipSpace (Blank.trimEnd cs)
  if isEmpty cs then .nothing
  else
    match target? cs with
    | none => .unreadable
    | some (name, rest) =>
      let rest := skipSpace rest
      if isEmpty rest then .assignment (String.ofList name) ""
      else
        match value? env done rest with
        | some value => .assignment (String.ofList name) value
        | none => .unreadable

/-- Reads lines; a variable that is set already keeps its value. -/
def load (env : Environment) (done : Assignments) : List (List Char) → Environment
  | [] => env
  | cs :: rest =>
    match line env done cs with
    | .unreadable => env
    | .nothing => load env done rest
    | .assignment name value =>
      let isSet := (env.text? name).isSome
      load (if isSet then env else env.set name value) ((name, value) :: done) rest

/-- What may stand in the braces of references. -/
def bracedNames : List Char → List (List Char)
  | [] => []
  | '{' :: cs => cs.takeWhile (· ≠ '}') :: bracedNames cs
  | _ :: cs => bracedNames cs

/-- The names that a file may set or refer to: what can be a name without braces, what can be one
that is set, and what stands in braces. -/
def namesIn (file : String) : List String :=
  let cs := file.toList
  let plain := cs.splitOnP fun c => !Alphanumeric.isMember c
  let keys := cs.splitOnP fun c => !isKeyChar c
  (plain ++ keys ++ bracedNames cs).map String.ofList

/-- The environment of a process after a file of variables has been read. -/
def apply (env : Environment) (file : String) : Environment :=
  load env [] (file.toList.splitOn '\n')

end VideoComments.Config.EnvFile
