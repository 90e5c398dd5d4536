/-!
# The exception classes of the source

The classes that an `except` clause of the modelled code names, those it can meet, and their
inheritance, so that a clause is a membership test (`PyError.caughtBy`).
-/

set_option autoImplicit false

namespace PipeWorks.Python

inductive PyError where
  | assertionError
  | attributeError
  | authenticationError
  | brokenPipeError
  | connectionResetError
  | eofError
  | ffmpegError
  | indexError
  | jsonDecodeError
  | keyError
  | osError
  | recursionError
  | runtimeError
  | typeError
  | unicodeDecodeError
  | valueError
  /-- any class the source does not name -/
  | other (className : String)
  deriving DecidableEq, Repr

/-- The proper base classes below `Exception`, as far as they are classes of this type. -/
def PyError.bases : PyError → List PyError
  | .brokenPipeError | .connectionResetError => [.osError]
  | .jsonDecodeError | .unicodeDecodeError => [.valueError]
  | .recursionError => [.runtimeError]
  | _ => []

/-- `isinstance(e, cls)`. -/
def PyError.isInstance (e cls : PyError) : Bool := e == cls || e.bases.contains cls

/-- `except (classes...)` catches `e`. -/
def PyError.caughtBy (e : PyError) (classes : List PyError) : Bool := classes.any e.isInstance

end PipeWorks.Python
