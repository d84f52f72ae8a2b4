import RegistryFront.Acme.IssueError
import RegistryFront.Environment.Error
import RegistryFront.StaticPair.Error

/-!
# Errors at the start of the server
-/

namespace RegistryFront.Startup

inductive SetupError where
  | config (cause : Environment.ConfigError)
  | caRoot (cause : StaticPair.Error)
  | issuer (cause : Acme.IssueError)

namespace SetupError

def message : SetupError → String
  | .config cause => "invalid ACME configuration: " ++ cause.message
  | .caRoot cause => "invalid ACME CA root: " ++ cause.message
  | .issuer cause => cause.message

/-- Whether the authority was to be used at all: then no weaker identity may take the place. -/
def acmeEnabled : SetupError → Bool
  | .config _ => false
  | .caRoot _ => true
  | .issuer _ => true

end SetupError

inductive StartupError where
  | acme (cause : SetupError)
  | static (cause : StaticPair.Error)

def StartupError.message : StartupError → String
  | .acme cause => "ACME identity unavailable: " ++ cause.message
  | .static cause => "static identity unavailable: " ++ cause.message

end RegistryFront.Startup
