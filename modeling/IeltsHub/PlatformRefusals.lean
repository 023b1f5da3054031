import IeltsHub.PlatformErrors

set_option autoImplicit false

/-!
# Refusals

What a route answers instead of a result: the status of the domain error that was raised, with its
message and its code, or whatever else went wrong on the way.
-/
namespace IeltsHub.PlatformRefusals
open PlatformErrors

inductive Refusal where
  | unauthenticated (message code : String)
  | paymentRequired (message reason : String)
  | forbidden (message code : String)
  | tooEarly (message code : String)
  | gone (message code : String)
  | raised (e : Raised)
  deriving DecidableEq

def conflict (message code : String) : Refusal := .raised (PlatformErrors.conflict message code)

def notFound (message : String) : Refusal := .raised (PlatformErrors.notFound message)

def integrity (index : String) : Refusal := .raised (.domain (.integrity index))

end IeltsHub.PlatformRefusals
