import RegistryFront.Acme.Answers

/-!
# Talking to an authority over HTTP

Every request but that for the directory is signed and carries a nonce, which the answer before it may
have brought along; else one is fetched.  A request whose nonce is turned down is made again, three
times in all.  Within an order nonces are passed on from answer to request; accounts and orders begin
with a nonce of their own.
-/

namespace RegistryFront.Acme

/-! ## Calls -/

inductive Method where
  | get
  | head
  | post
  deriving DecidableEq, Repr

inductive Signer where
  | key (key : Keys.CurveKey)
  | account (url : String)

def Signer.name : Signer → String
  | .key _ => "jwk"
  | .account url => url

/-- What is signed of a request; without a payload something is asked for only. -/
structure Signed where
  signer : Signer
  nonce : String
  payload : Option Json.Value

structure Call where
  method : Method
  url : String
  signed : Option Signed

structure Delivery where
  status : Nat
  nonce : Option String
  location : Option String
  body : List UInt8
  deriving DecidableEq, Repr

structure Transport (τ : Type) where
  send : Call → Exposure → τ → Reply Delivery × τ
  bind : Responder → Net.Endpoint → τ → BindOutcome × τ
  sleep : Nat → τ → Time.Instant × τ

structure Line (τ : Type) where
  inner : τ
  nonce : Option String
  /-- Nanoseconds taken by the request that is being made. -/
  took : Nat
  wall : Time.Instant

abbrev Talk (τ α : Type) := ExceptT ExchangeError (StateM (Line τ)) α

/-! ## Payloads -/

def contactJson (contact : List String) : Json.Value :=
  .object [
    ("contact", .list (contact.map .string)),
    ("termsOfServiceAgreed", .bool true),
    ("onlyReturnExisting", .bool false)]

def domainsJson (domains : List String) : Json.Value :=
  .object [("identifiers",
    .list (domains.map fun domain =>
      .object [("type", .string "dns"), ("value", .string domain)]))]

def csrJson (csr : List UInt8) : Json.Value := .object [("csr", .string (urlName csr))]

/-! ## Answers -/

namespace Delivery

def read (step : Json.Step α) (delivery : Delivery) : Except ExchangeError α :=
  (Json.parse step (Text.Utf8.decodeLossy delivery.body)).mapError .json

def isProblem (delivery : Delivery) : Bool := delivery.status < 100 || 400 ≤ delivery.status

def check (delivery : Delivery) : Except ExchangeError Unit := do
  if delivery.isProblem then .error (.refused (← delivery.read Problem.step)) else .ok ()

def checked (step : Json.Step α) (delivery : Delivery) : Except ExchangeError α := do
  delivery.check
  delivery.read step

def locationOr (missing : String) (delivery : Delivery) : Except ExchangeError String :=
  match delivery.location with
  | some url => .ok url
  | none => .error (.missing missing)

def text (delivery : Delivery) : Except ExchangeError String :=
  match Text.Utf8.decode? delivery.body with
  | some text => .ok text
  | none => .error (.missing "unable to decode certificate as UTF-8")

def badNonce : String := "urn:ietf:params:acme:error:badNonce"

/-- Whether the nonce was turned down; bad requests have to say what is wrong. -/
def turnsNonceDown (delivery : Delivery) : Except ExchangeError Bool :=
  if delivery.status = 400 then
    (delivery.read Problem.step).map fun problem => problem.kind == some badNonce
  else .ok false

end Delivery

/-! ## Requests -/

namespace Talk

variable {τ : Type} (transport : Transport τ) (exposure : Exposure)

def send (call : Call) : Talk τ Delivery :=
  ExceptT.mk fun line =>
    let (reply, inner) := transport.send call exposure line.inner
    (reply.answer, { line with inner := inner, took := line.took + reply.took, wall := reply.wall })

def keepNonce (nonce : Option String) : Talk τ Unit :=
  modify fun line => { line with nonce := nonce }

def fetchNonce (endpoints : Endpoints) : Talk τ String := do
  let delivery ← send transport exposure ⟨.head, endpoints.newNonce, none⟩
  if delivery.status ≠ 200 then throw (.missing "error response from newNonce resource")
  else
    match delivery.nonce with
    | some nonce => pure nonce
    | none => throw (.missing "no nonce found in newNonce response")

def takeNonce (endpoints : Endpoints) : Talk τ String := do
  match (← get).nonce with
  | some nonce => do
      keepNonce none
      pure nonce
  | none => fetchNonce transport exposure endpoints

def postOnce (endpoints : Endpoints) (signer : Signer) (url : String) (payload : Option Json.Value) :
    Talk τ Delivery := do
  let nonce ← takeNonce transport exposure endpoints
  let delivery ← send transport exposure ⟨.post, url, some ⟨signer, nonce, payload⟩⟩
  keepNonce delivery.nonce
  pure delivery

def postTrying (endpoints : Endpoints) (signer : Signer) (url : String)
    (payload : Option Json.Value) : (more : Nat) → Talk τ Delivery
  | 0 => postOnce transport exposure endpoints signer url payload
  | more + 1 => do
      let delivery ← postOnce transport exposure endpoints signer url payload
      if ← (delivery.turnsNonceDown : Except ExchangeError Bool) then
        postTrying endpoints signer url payload more
      else pure delivery

def post (endpoints : Endpoints) (signer : Signer) (url : String) (payload : Option Json.Value) :
    Talk τ Delivery :=
  postTrying transport exposure endpoints signer url payload 2

def postAs (account : Account) (url : String) (payload : Option Json.Value) : Talk τ Delivery :=
  post transport exposure account.endpoints (.account account.url) url payload

def ofExcept (result : Except ExchangeError α) : Talk τ α := ExceptT.mk (pure result)

def perform : (request : Request) → Talk τ request.Answer
  | .directory url => do
      let delivery ← send transport exposure ⟨.get, url, none⟩
      ofExcept (delivery.read Endpoints.step)
  | .newAccount endpoints key contact => do
      keepNonce none
      let delivery ← post transport exposure endpoints (.key key) endpoints.newAccount
        (some (contactJson contact))
      ofExcept delivery.check
      ofExcept (delivery.locationOr "failed to get account URL")
  | .newOrder account domains => do
      keepNonce none
      let delivery ← postAs transport exposure account account.endpoints.newOrder
        (some (domainsJson domains))
      let state ← ofExcept (delivery.checked OrderState.step)
      let url ← ofExcept (delivery.locationOr "no order URL found")
      pure (url, state)
  | .authorization account url => do
      let delivery ← postAs transport exposure account url none
      ofExcept (delivery.checked Authorization.step)
  | .challengeReady account url => do
      let delivery ← postAs transport exposure account url (some (.object []))
      let _ ← ofExcept (delivery.checked Challenge.step)
      pure ()
  | .orderState account url => do
      let delivery ← postAs transport exposure account url none
      ofExcept (delivery.checked OrderState.step)
  | .finalize account url csr => do
      let delivery ← postAs transport exposure account url (some (csrJson csr))
      ofExcept (delivery.checked OrderState.step)
  | .certificate account url => do
      let delivery ← postAs transport exposure account url none
      ofExcept delivery.check
      ofExcept delivery.text

end Talk

def Transport.outside (transport : Transport τ) : Outside (Line τ) := {
  ask := fun request exposure line =>
    let (answer, line) := (Talk.perform transport exposure request) { line with took := 0 }
    (⟨answer, line.took, line.wall⟩, line)
  bind := fun responder endpoint line =>
    let (outcome, inner) := transport.bind responder endpoint line.inner
    (outcome, { line with inner := inner })
  sleep := fun nanos line =>
    let (wall, inner) := transport.sleep nanos line.inner
    (wall, { line with inner := inner, wall := wall }) }

def Line.fresh (inner : τ) (now : Time.Instant) : Line τ := ⟨inner, none, 0, now⟩

end RegistryFront.Acme
