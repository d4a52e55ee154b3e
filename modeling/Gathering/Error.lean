/-!
# Errors

What can go wrong, by cause. An error is **transient** if the same call may
succeed later: the cache, the gateway or the store did not answer, or the call
was cut off. Every other error is final: asking again gives it again. The
difference decides whether a failed task is tried again or fails at once.

Two causes carry no text of their own, because the words belong to the cache's
protocol and to the reader of stored values.
-/

namespace Gathering

/-- **Why an operation failed.** -/
inductive Error where
  /-- The shared cache refused a command or gave no proper answer. -/
  | redis
  /-- A stored value could not be read. -/
  | serialization
  /-- There is no entity of this kind with this identifier. -/
  | notFound (kind id : String)
  /-- The input breaks a rule. -/
  | invalidInput (reason : String)
  /-- The notification gateway failed. -/
  | gateway (reason : String)
  /-- The durable store failed, or a lease was lost. -/
  | store (reason : String)
  /-- The operation took too long. -/
  | timeout
  /-- The operation was called off. -/
  | cancelled
  /-- A setting is out of range or cannot be read. -/
  | config (reason : String)
  /-- Anything else. -/
  | other (reason : String)
  deriving DecidableEq, Repr

namespace Error

/-- Whether the same call may succeed later. -/
def isTransient : Error → Bool
  | redis | gateway _ | store _ | timeout | cancelled => true
  | serialization | notFound _ _ | invalidInput _ | config _ | other _ => false

/-- Whether asking again gives the same error. -/
def isFinal (e : Error) : Bool := !e.isTransient

/-- Whether an entity was missing. -/
def isNotFound : Error → Bool
  | notFound _ _ => true
  | _ => false

/-- Whether the input broke a rule. -/
def isInvalidInput : Error → Bool
  | invalidInput _ => true
  | _ => false

/-- **The text of an error.** -/
def message : Error → String
  | redis => "Redis error"
  | serialization => "Serialization error"
  | notFound kind id => kind ++ " not found: " ++ id
  | invalidInput reason => "Invalid input: " ++ reason
  | gateway reason => "Gateway error: " ++ reason
  | store reason => "Store error: " ++ reason
  | timeout => "Operation timeout"
  | cancelled => "Operation cancelled"
  | config reason => "Configuration error: " ++ reason
  | other reason => "Other error: " ++ reason

end Error

end Gathering
