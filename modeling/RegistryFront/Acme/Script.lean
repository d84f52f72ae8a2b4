import RegistryFront.Acme.Line

/-!
# An authority that follows a script

For every method and path there are answers prepared, which are given one after the other; the last one
is given again and again.  All calls are kept, with what could be seen when they came.
-/

namespace RegistryFront.Acme

structure Prepared where
  status : Nat
  hasNonce : Bool
  location : Option String
  body : List UInt8
  deriving DecidableEq, Repr

def Prepared.noRoute : Prepared :=
  let problem : Json.Value := .object [("detail", .string "no route"),
    ("type", .string "urn:ietf:params:acme:error:malformed")]
  ⟨404, true, none, Text.Utf8.encode problem.compact⟩

def Method.name : Method → String
  | .get => "GET"
  | .head => "HEAD"
  | .post => "POST"

structure Script where
  base : Option String
  routes : List (String × List Prepared)
  nonces : Nat
  taken : List Nat
  clock : Time.Instant
  /-- The oldest first. -/
  calls : List (Call × Exposure)

namespace Script

def pathOf? (script : Script) (url : String) : Option String := do
  let base ← script.base
  if base.toList.isPrefixOf url.toList then
    let path := url.toList.drop base.toList.length
    some (if path = [] then "/" else String.ofList path)
  else none

def routeOf? (script : Script) (call : Call) : Option String :=
  (script.pathOf? call.url).map fun path => call.method.name ++ " " ++ path

def next (script : Script) (route : String) : Prepared × Script :=
  match script.routes.lookup route with
  | some (prepared :: following :: rest) =>
      (prepared, { script with routes := (route, following :: rest) :: script.routes })
  | some [prepared] => (prepared, script)
  | _ => (.noRoute, script)

def deliver (script : Script) (route : String) : Delivery × Script :=
  let (prepared, script) := script.next route
  let script := if prepared.hasNonce then { script with nonces := script.nonces + 1 } else script
  let nonce := if prepared.hasNonce then some ("n" ++ toString script.nonces) else none
  (⟨prepared.status, nonce, prepared.location, prepared.body⟩, script)

def transport : Transport Script := {
  send := fun call exposure script =>
    match script.routeOf? call with
    | none => (⟨.error (.other "client error (Connect)"), 0, script.clock⟩, script)
    | some route =>
        let (delivery, script) := script.deliver route
        (⟨.ok delivery, 0, script.clock⟩,
          { script with calls := script.calls ++ [(call, exposure)] })
  bind := fun _ endpoint script =>
    (if script.taken.contains endpoint.port then .inUse else .bound, script)
  sleep := fun _ script => (script.clock, script) }

def unplugged (clock : Time.Instant) : Script := ⟨none, [], 0, [], clock, []⟩

end Script

end RegistryFront.Acme
