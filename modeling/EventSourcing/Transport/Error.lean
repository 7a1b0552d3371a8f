/-!
What can go wrong between the streaming store and its remote end. A remote end that reports status
numbers has them sorted into causes by `ofStatus`.
-/

namespace EventSourcing

inductive TransportError where
  | notFound
  | unauthorized
  | conflict (reason : String)
  | unavailable (reason : String)
  | network (reason : String)
  | status (code : Nat) (message : String)
deriving DecidableEq, Repr

namespace TransportError

def ofStatus (code : Nat) (message : String) : TransportError :=
  if code = 401 ∨ code = 403 then .unauthorized
  else if code = 404 ∨ code = 410 then .notFound
  else if code = 409 ∨ code = 412 then .conflict message
  else if 500 ≤ code ∧ code ≤ 599 then .unavailable message
  else .status code message

def message : TransportError → String
  | .notFound => "stream not found"
  | .unauthorized => "unauthorized"
  | .conflict reason => "wrong expected version: " ++ reason
  | .unavailable reason => "temporarily unavailable: " ++ reason
  | .network reason => "network error: " ++ reason
  | .status code message => "unexpected status " ++ toString code ++ ": " ++ message

end TransportError

end EventSourcing
