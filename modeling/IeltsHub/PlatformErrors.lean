import IeltsHub.PyExc

set_option autoImplicit false

/-!
# Domain errors

The errors the application raises itself, each with its message and the code a client branches
on. A `Conflict` carries the contests it names. `integrity` is the database refusing a
statement: a constraint, a trigger or a number out of range.
-/
namespace IeltsHub.PlatformErrors
open PyExc

inductive DomainError where
  | conflict (message code : String) (competitions : List String)
  | notFound (message code : String)
  | registryError (message : String)
  | integrity (message : String)
  deriving DecidableEq, Repr

abbrev Raised := Exc DomainError

def conflict (message code : String) : Raised := .domain (.conflict message code [])

def notFound (message : String) : Raised := .domain (.notFound message "not_found")

def Raised.isConflict : Raised → Bool
  | .domain (.conflict _ _ _) => true
  | _ => false

end IeltsHub.PlatformErrors
