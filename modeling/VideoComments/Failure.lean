import VideoComments.Text.Decimal
import VideoComments.Uuid.Fault

/-!
# Failures

What can go wrong in a call, by cause: the comment does not exist, its identifier is malformed, the
database or the cache reports an error, a statement cannot be built, or something inside the service
breaks. `Failure.message` is the wording that callers and logs see.
-/

namespace VideoComments

/-! ## The database -/

/-- What a database, or the connection to it, reports. -/
inductive DatabaseError
  | rowNotFound
  | poolTimedOut
  | poolClosed
  | workerCrashed
  | columnNotFound (name : String)
  | columnIndex (index size : Nat)
  | typeNotFound (name : String)
  | protocol (detail : String)
  | reported (message : String)
  | unexpectedNull (column : String)
  | unreachable (cause : String)
  deriving DecidableEq

/-- The wording of a database error. -/
def DatabaseError.message : DatabaseError → String
  | .rowNotFound => "no rows returned by a query that expected to return at least one row"
  | .poolTimedOut => "pool timed out while waiting for an open connection"
  | .poolClosed => "attempted to acquire a connection on a closed pool"
  | .workerCrashed => "attempted to communicate with a crashed background worker"
  | .columnNotFound name => "no column found for name: " ++ name
  | .columnIndex index size =>
    "column index out of bounds: the len is " ++ Decimal.ofNat size ++ ", but the index is " ++
      Decimal.ofNat index
  | .typeNotFound name => "type named " ++ name ++ " not found"
  | .protocol detail => "encountered unexpected or invalid data: " ++ detail
  | .reported message => "error returned from database: " ++ message
  | .unexpectedNull column =>
    "error occurred while decoding column \"" ++ column ++
      "\": unexpected null; try decoding as an `Option`"
  | .unreachable cause => "error communicating with database: " ++ cause

/-! ## The cache -/

/-- What a cache server, or the connection to it, reports. -/
inductive CacheError
  /-- An error of a known category. -/
  | described (summary category : String) (detail : Option String)
  /-- A reply with a code that has no category. -/
  | coded (code : String) (detail : Option String)
  | unreachable (cause : String)
  deriving DecidableEq

namespace CacheError

/-- The wording of a cache error. -/
def message : CacheError → String
  | .described summary category (some detail) => summary ++ " - " ++ category ++ ": " ++ detail
  | .described summary category none => summary ++ "- " ++ category
  | .coded code (some detail) => code ++ ": " ++ detail
  | .coded code none => code ++ ": Unknown extension error encountered"
  | .unreachable cause => cause

/-- The categories of the codes with which an error reply may begin. -/
def categories : List (String × String) :=
  [("ERR", "ResponseError"), ("EXECABORT", "ExecAbortError"), ("LOADING", "BusyLoadingError"),
   ("NOSCRIPT", "NoScriptError"), ("TRYAGAIN", "TryAgain"), ("CLUSTERDOWN", "ClusterDown"),
   ("MASTERDOWN", "MasterDown"), ("READONLY", "ReadOnly")]

/-- The error that a reply stands for: its first word is a code, the rest the detail. -/
def ofReply (reply : String) : CacheError :=
  let code := String.ofList (reply.toList.takeWhile (· ≠ ' '))
  let detail :=
    match reply.toList.dropWhile (· ≠ ' ') with
    | _ :: rest => some (String.ofList rest)
    | [] => none
  match categories.lookup code with
  | some category => .described "An error was signalled by the server" category detail
  | none => .coded code detail

/-- A value that is not text was asked for as text. -/
def notText : CacheError := .described "Cannot convert from UTF-8" "TypeError" none

end CacheError

/-! ## Calls -/

/-- Why a call fails. -/
inductive Failure
  | commentNotFound
  | invalidId (id : String) (fault : Uuid.Fault)
  | database (error : DatabaseError)
  | query (columns values : Nat)
  | cache (error : CacheError)
  | internal (detail : String)
  deriving DecidableEq

namespace Failure

/-- The wording of the cause that a failure wraps, if it wraps one. -/
def source? : Failure → Option String
  | .commentNotFound => none
  | .invalidId _ fault => some fault.message
  | .database error => some error.message
  | .query columns values =>
    some ("Columns and values length mismatch: " ++ Decimal.ofNat columns ++ " != " ++
      Decimal.ofNat values)
  | .cache error => some error.message
  | .internal _ => none

/-- The wording of a failure. -/
def message (failure : Failure) : String :=
  let source := failure.source?.getD ""
  match failure with
  | .commentNotFound => "comment not found"
  | .invalidId id _ => "invalid comment id `" ++ id ++ "`: " ++ source
  | .database _ => "database error: " ++ source
  | .query _ _ => "query build error: " ++ source
  | .cache _ => "redis error: " ++ source
  | .internal detail => "internal error: " ++ detail

end Failure

end VideoComments
