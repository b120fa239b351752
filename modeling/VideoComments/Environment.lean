import VideoComments.Text.Utf8

/-!
# The environment of a process

An environment is a sequence of entries, each a name, an equals sign and a value. Names and values
are not kept apart: a variable is looked up by its name and an equals sign, and the first entry that
starts with these holds its value, wherever else the entry has equals signs. So a name may reach
into the value of another variable, as far as an equals sign in it.

* `Environment.bytes?` and `Environment.text?` look a variable up.
* `Environment.set` changes the entry of a variable, or adds one at the end.
-/

namespace VideoComments

/-- The environment of a process. -/
structure Environment where
  entries : List (List UInt8) := []
  deriving DecidableEq

namespace Environment

/-- The entry of a variable. -/
def entry (name : String) (value : List UInt8) : List UInt8 := Utf8.encode name ++ 0x3D :: value

/-- The environment that has an entry for each of some variables. -/
def ofVariables (vars : List (String × List UInt8)) : Environment :=
  ⟨vars.map fun v => entry v.1 v.2⟩

/-- The value of a variable in an entry that is one of its own. The empty name has none. -/
def valueIn? (name : String) (e : List UInt8) : Option (List UInt8) :=
  let start := entry name []
  if name ≠ "" ∧ start.isPrefixOf e then some (e.drop start.length) else none

/-- The value of a variable. -/
def bytes? (env : Environment) (name : String) : Option (List UInt8) :=
  env.entries.findSome? (valueIn? name)

/-- The value of a variable, if it is text. -/
def text? (env : Environment) (name : String) : Option String := (env.bytes? name).bind Utf8.decode?

/-- Entries with a new value of a variable: in place of its first entry, or else at the end. -/
def setIn (name : String) (value : List UInt8) : List (List UInt8) → List (List UInt8)
  | [] => [entry name value]
  | e :: es =>
    if (valueIn? name e).isSome then entry name value :: es else e :: setIn name value es

/-- The environment with a new value of a variable. -/
def set (env : Environment) (name value : String) : Environment :=
  ⟨setIn name (Utf8.encode value) env.entries⟩

end Environment

end VideoComments
