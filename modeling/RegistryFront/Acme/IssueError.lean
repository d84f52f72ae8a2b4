import RegistryFront.Acme.Problem
import RegistryFront.Net.Address
import RegistryFront.Store.Basic
import RegistryFront.Time.Span
import RegistryFront.Tls.Certified
import RegistryFront.X509.Fault

/-!
# Errors on the way to a certificate
-/

namespace RegistryFront.Acme

inductive IssueError where
  | exchange (cause : ExchangeError)
  | orderCreation (text : String)
  | noSupportedChallenge (domain : String)
  | authorization (domain status : String)
  | orderInvalid (detail : String)
  | timeout (span : Time.Span) (waitingFor : String)
  | responder (endpoint : Net.Endpoint) (cause : Files.FileError)
  | certificateGeneration (cause : X509.BuildError)
  | invalidCertificate (text : String)
  | tls (fault : Tls.Fault)
  | store (cause : StoreError)
  | serialization (cause : Json.Error)
  /-- The day up to which a certificate has to last is past the end of the calendar. -/
  | pastCalendar

def IssueError.message : IssueError → String
  | .exchange cause => "ACME protocol error: " ++ cause.message
  | .orderCreation text => "Order creation failed: " ++ text
  | .noSupportedChallenge domain => "No supported challenge offered for " ++ domain
  | .authorization domain status => "Authorization for " ++ domain ++ " failed: " ++ status
  | .orderInvalid detail => "Order became invalid: " ++ detail
  | .timeout span waitingFor => "Timeout after " ++ span.text ++ " waiting for " ++ waitingFor
  | .responder endpoint cause =>
      "Challenge responder could not bind " ++ endpoint.text ++ ": " ++ cause.message
  | .certificateGeneration cause => "Certificate generation failed: " ++ cause.message
  | .invalidCertificate text => "Invalid certificate: " ++ text
  | .tls fault => "TLS configuration error: " ++ fault.message
  | .store cause => "Storage error: " ++ cause.message
  | .serialization cause => "Serialization error: " ++ cause.message
  | .pastCalendar => "The day of renewal is past the end of the calendar"

/-- Whether it ends the task in which it comes up, where other errors are returned. -/
def IssueError.isPanic : IssueError → Bool
  | .pastCalendar | .certificateGeneration .digestLength => true
  | _ => false

def IssueError.ofDue : Store.DueError → IssueError
  | .store cause => .store cause
  | .pastCalendar => .pastCalendar

end RegistryFront.Acme
