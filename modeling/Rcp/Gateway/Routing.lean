/-
The routes of the platform, as they are reached through the gateway.

The gateway forwards a path by the longest prefix in `ROUTE_TABLE`
(`gateway/app/core/config.py`, `resolve_upstream` of `gateway/app/proxy.py`), and the service
that it goes to looks for a route that matches path and method.  A parameter of a route takes
one segment of the path that is not empty.
-/
import Rcp.Common.Split
import Mathlib.Data.List.MinMax

namespace Rcp
namespace Gateway

inductive Service
  | iam
  | logistics
  | analytics
  | volunteer
  | rto
  deriving DecidableEq

inductive Method
  | get
  | post
  | put
  | patch
  | delete
  | options
  | head
  deriving DecidableEq

/-- A route of a service and the function behind it. -/
structure Route where
  method : Method
  path : String
  endpoint : String

def segments (path : String) : List (List Char) := path.toList.splitOn '/'

/-- The segment of a route is a parameter. -/
def isParameter (segment : List Char) : Bool := segment.head? == some '{'

def matchSegments : List (List Char) → List (List Char) → Bool
  | [], [] => true
  | s :: rest, value :: values =>
      (if isParameter s then value ≠ [] else s = value) && matchSegments rest values
  | _, _ => false

def Route.matches (route : Route) (path : String) : Bool :=
  matchSegments (segments route.path) (segments path)

/-- What becomes of a request. -/
inductive Answer
  | endpoint (service : Service) (name : String)
  /-- It is answered by the gateway itself. -/
  | own (name : String)
  | methodNotAllowed
  | notFound
  deriving DecidableEq

/-- The first route that matches path and method, and 405 if only the method is missing. -/
def answer (routes : List (Service × Route)) (method : Method) (path : String) : Answer :=
  match routes.find? fun r => r.2.matches path && r.2.method == method with
  | some r => .endpoint r.1 r.2.endpoint
  | none => if routes.any fun r => r.2.matches path then .methodNotAllowed else .notFound

/-! ## The routers -/

section Prefixes

variable {path stem stem' : String} {table table' : Dict String Service}

end Prefixes

/-! ## One router -/

section Routers

variable {path : String} {method : Method}

end Routers

end Gateway
end Rcp
