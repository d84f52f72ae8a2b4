import RegistryFront.Acme.ChallengeBoard

/-!
# Answers over HTTP

A challenge of the first kind is answered by the text that is pending under the token of the path.
Everything else is not found.
-/

namespace RegistryFront.Acme

structure HttpRequest where
  method : String
  target : String
  deriving DecidableEq, Repr

structure HttpResponse where
  status : Nat
  contentType : Option String
  body : String
  deriving DecidableEq, Repr

namespace HttpRequest

/-- What stands behind the first `://`, if there is one before any slash. -/
def afterScheme? : List Char → Option (List Char)
  | [] => none
  | ':' :: '/' :: '/' :: rest => some rest
  | '/' :: _ => none
  | '?' :: _ => none
  | _ :: rest => afterScheme? rest

def endPath (text : List Char) : List Char := text.takeWhile fun c => c ≠ '?' && c ≠ '#'

def path (request : HttpRequest) : String :=
  match afterScheme? request.target.toList with
  | none => String.ofList (endPath request.target.toList)
  | some rest =>
      let path := endPath (rest.dropWhile fun c => c ≠ '/' && c ≠ '?' && c ≠ '#')
      if path = [] then "/" else String.ofList path

end HttpRequest

namespace HttpResponse

def found (body : String) : HttpResponse := ⟨200, some "text/plain", body⟩

def notFound : HttpResponse := ⟨404, none, ""⟩

def statusLine (response : HttpResponse) : String :=
  "HTTP/1.1 " ++ if response.status = 200 then "200 OK" else "404 Not Found"

/-- The headers in alphabetical order, for a connection that ends with the answer. -/
def headerLines (response : HttpResponse) : List String :=
  ["connection: close",
    "content-length: " ++ toString response.body.utf8ByteSize] ++
    (response.contentType.map ("content-type: " ++ ·)).toList

end HttpResponse

def challengeText? (board : ChallengeBoard κ) (request : HttpRequest) : Option String :=
  if request.method = "GET" ∨ request.method = "HEAD" then
    (tokenOfPath? request.path).bind board.text?
  else none

def answer (board : ChallengeBoard κ) (request : HttpRequest) : HttpResponse :=
  match challengeText? board request with
  | some text => .found text
  | none => .notFound

end RegistryFront.Acme
