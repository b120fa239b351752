import VideoComments.Stack
import VideoComments.Startup

/-!
# The command line

Starts the service from its environment and answers the calls on standard input, one a line: the
path of a method and the body of the call in hexadecimal digits. The answer is the number of the
code, the body in the same digits, and the message of the status if there is one. The target
`/metrics` is answered with the text of the metrics. Comments live as long as the process.
-/

namespace VideoComments

/-- The file of variables in the working directory, if it can be read. -/
def readEnvFile : IO (Option String) := do
  try return some (← IO.FS.readFile ".env") catch _ => return none

/-- The variables of the process that the service reads or its file of variables refers to. -/
def readEnvironment (envFile : Option String) : IO Environment := do
  let names := Startup.variableNames ++ Config.EnvFile.namesIn (envFile.getD "")
  let vars ← names.filterMapM fun name => do
    return (← IO.getEnv name).map fun value => (name, Utf8.encode value)
  return .ofVariables vars

/-- Notes what has happened on the error stream. -/
def report (logs : List LogLine) : IO Unit := do
  for l in logs do IO.eprintln (l.level.name ++ " " ++ l.message)

/-- Answers one line. -/
def answerLine (repository : Repository) (w : World) (line : String) : IO World := do
  let (target, body) := line.toList.span (· ≠ ' ')
  let target := String.ofList target
  if target = "/metrics" then
    IO.print (w.metrics.text Metrics.serviceName)
    return w
  match Hex.bytes? (body.drop 1) with
  | none =>
    IO.eprintln "The body of a call is written in hexadecimal digits"
    return w
  | some bytes =>
    let w := { w with now := ← IO.monoMsNow }
    let (reply, trace, w) := w.perform (Rpc.serve repository target bytes)
    report trace.logs
    let words := [Decimal.ofNat reply.code.number, String.ofList (Hex.ofBytes reply.body)]
    IO.println (" ".intercalate (words ++ reply.message.toList))
    return w

/-- Answers lines up to the end of the input. -/
partial def answerLines (repository : Repository) (input : IO.FS.Stream) (w : World) : IO Unit := do
  let line ← input.getLine
  unless line.isEmpty do
    let w ← answerLine repository w (String.ofList (Blank.trimEnd line.toList))
    (← IO.getStdout).flush
    answerLines repository input w

/-- Starts the service and serves. -/
def serveFromEnvironment : IO UInt32 := do
  let envFile ← readEnvFile
  let environment ← readEnvironment envFile
  match Startup.launch { environment, envFile, database := .up, redis := .up } with
  | .error fault =>
    for l in fault.report do IO.eprintln l
    return 1
  | .ok config =>
    let stack := Stack.ofConfig config
    report stack.openingLines
    answerLines stack.repository (← IO.getStdin) {}
    return 0

end VideoComments

/-- The command line of the service. -/
def main : IO UInt32 := VideoComments.serveFromEnvironment
