/-!
# Errors

What can go wrong, as causes. The wording is in `Error.message`; `Error.isRetryable` says which
failures may pass when the same call is repeated. A failure of the link carries its own chain of
causes, outermost first.
-/

namespace ItemClient

/-- Why the link to the remote store gave no answer. -/
inductive LinkFailure where
  /-- A failure that the link words itself. -/
  | reported (text : String)
  /-- The request could not be built: one of its parts is not valid HTTP. -/
  | malformed (reason : String)
  /-- The connection for a request to `url` could not be opened. -/
  | unreachable (url reason : String)
  deriving DecidableEq

namespace LinkFailure

/-- The texts of a failure and of the causes below it, outermost first. -/
def chain : LinkFailure → List String
  | reported text => [text]
  | malformed reason => ["builder error: " ++ reason, reason]
  | unreachable url reason =>
      let connect := "tcp connect error: " ++ reason
      let attempt := "error trying to connect: " ++ connect
      ["error sending request for url (" ++ url ++ "): " ++ attempt, attempt, connect, reason]

def text (f : LinkFailure) : String := f.chain.headD ""

/-- Whether the failure is worded by the link itself. -/
def isReported : LinkFailure → Bool
  | reported _ => true
  | _ => false

end LinkFailure

/-- Why an operation failed. -/
inductive Error where
  /-- The parts of a program do not fit together. -/
  | configuration (text : String)
  | invalidConfig (text : String)
  | transport (failure : LinkFailure)
  | remote (text : String)
  | unexpectedStatus (status : Nat)
  | healthCheck (failure : LinkFailure)
  /-- A row was asked for and there is none. -/
  | emptyResult (collection : String)
  /-- An expression is not a comparison. -/
  | compile (expression reason : String)
  /-- Sending the changes of one item failed. -/
  | persistence (collection id : String) (source : Error)
  /-- A text does not say what was to be read from it. -/
  | decode
  /-- An entity cannot be read. -/
  | lock (text : String)
  deriving DecidableEq

namespace Error

def poisoned : Error := .lock "poisoned lock: another task failed inside"

/-- The wording of an error. What exactly is wrong with a text is left to its reader. -/
def message : Error → String
  | configuration text => "Configuration error: " ++ text
  | invalidConfig text => "Invalid client configuration: " ++ text
  | transport failure => "Transport error: " ++ failure.text
  | remote text => "Remote error: " ++ text
  | unexpectedStatus status => "Unexpected status code: " ++ toString status
  | healthCheck failure => "Health check failed: " ++ failure.text
  | emptyResult collection => "Collection '" ++ collection ++ "' returned no items"
  | compile expression reason => "Cannot compile filter '" ++ expression ++ "': " ++ reason
  | persistence collection id source =>
      "Failed to persist " ++ collection ++ "/" ++ id ++ ": " ++ source.message
  | decode => "Decode error"
  | lock text => "Lock error: " ++ text

/-- Whether repeating the failed call may succeed: so for everything that the network or the
remote store did, and never for wiring and input. -/
def isRetryable : Error → Bool
  | transport _ | remote _ | unexpectedStatus _ | healthCheck _ => true
  | persistence _ _ source => source.isRetryable
  | _ => false

/-- The texts of the causes of an error, the nearest first. -/
def causes : Error → List String
  | transport failure => failure.chain
  | persistence _ _ source => source.message :: source.causes
  | _ => []

/-- Whether the whole wording is this library's own, down to the last cause. -/
def isOwnWording : Error → Bool
  | decode => false
  | transport failure | healthCheck failure => failure.isReported
  | persistence _ _ source => source.isOwnWording
  | _ => true

end Error

/-- The outcome of an operation that may fail. -/
abbrev Result (α : Type) := Except Error α

end ItemClient
