import RegistryFront.Text.Quoted

/-!
# Errors of the configuration variables
-/

namespace RegistryFront.Environment

inductive GatherError where
  | duplicateField (field : String)
  | other (text : String)
  deriving DecidableEq, Repr

def GatherError.message : GatherError → String
  | .duplicateField field => "duplicate field `" ++ field ++ "`"
  | .other text => text

inductive ConfigError where
  | missingDomains (domainsVar enableVar : String)
  | invalidPort (var value : String)
  | invalidFlag (var value : String)
  | notText (var : String)
  | gather (cause : GatherError)
  deriving DecidableEq, Repr

def ConfigError.message : ConfigError → String
  | .missingDomains domainsVar enableVar =>
      domainsVar ++ " must be set when " ++ enableVar ++ " is true"
  | .invalidPort var value =>
      "invalid " ++ var ++ ": " ++ Text.quoted value ++ " (expected a port between 1 and 65535)"
  | .invalidFlag var value =>
      "invalid " ++ var ++ ": " ++ Text.quoted value ++ " (expected true or false)"
  | .notText var => "invalid " ++ var ++ ": value is not valid UTF-8"
  | .gather cause => "failed to read environment: " ++ cause.message

end RegistryFront.Environment
