import TransferLoad.Net.Exchange

/-!
# A server that follows a script

For rehearsing what happens over a network, a server can be told beforehand what it will respond. The
routes are method and target, or a star for whatever has no route of its own. The responses on a route
come one after the other, and the last of them again and again; a missing response means that the server
hangs up.
-/

namespace TransferLoad.Net

structure RouteScript where
  routes : List (String × List (Option Response)) := []
  deriving Repr, DecidableEq

namespace RouteScript

/-- The route of everything that has no other. -/
def otherRoute : String := "*"

def routeName (r : Request) : String := r.method.render ++ " " ++ r.location.target

def route? (s : RouteScript) (r : Request) : Option (String × List (Option Response)) :=
  (s.routes.find? fun route => route.1 = routeName r).or (s.routes.find? fun route => route.1 = otherRoute)

def count (s : RouteScript) (name : String) (requests : List Request) : Nat :=
  requests.countP fun r => (s.route? r).any fun route => route.1 = name

/-- Only plain connections are taken. -/
def isPlain (r : Request) : Bool := r.location.scheme = some "http".toList

/-- The response to a request; on a route that is not there, nothing is found. -/
def transport (s : RouteScript) : Transport := fun _ earlier r =>
  if !isPlain r then none
  else
    match s.route? r with
    | none => some { status := 404 }
    | some (name, responses) =>
      let turn := min (s.count name (earlier.filter isPlain)) (responses.length - 1)
      (responses[turn]?).getD (some { status := 404 })

end RouteScript

/-- A network on which nobody answers. -/
def Transport.silent : Transport := fun _ _ _ => none

end TransferLoad.Net
