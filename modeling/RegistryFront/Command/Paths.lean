import RegistryFront.Acme.Config
import RegistryFront.Acme.Settings
import RegistryFront.Command.Arguments
import RegistryFront.Store.Basic

/-!
# Which files a task may look at

The paths whose nodes a task depends on, so that only these have to be read before it is done.
-/

namespace RegistryFront.Command

def storePaths (store : Store) (directoryUrl domain : String) : List String :=
  [store.accountsPath, store.accountPath directoryUrl, store.domainsPath, store.domainPath domain,
    store.chainPath domain, store.keyPath domain, store.recordPath domain]

def configPaths (user : Acme.UserDirectories) (config : Acme.Config) : List String :=
  let settings : Acme.Settings Unit :=
    ⟨config.email, config.ca, config.httpPort, 0, none, config.storagePath⟩
  config.caRootPath.toList ++
    storePaths ⟨settings.storageDirectory user⟩ settings.directoryUrl config.primaryDomain

def locationPaths (location : StaticPair.Location) : List String :=
  [location.certificate, location.key]

def Task.paths (user : Acme.UserDirectories) (config : Option Acme.Config) : Task → List String
  | .bootstrap location => locationPaths location
  | .check => []
  | .groups _ => []
  | .identity location _ =>
      locationPaths location ++ (config.map (configPaths user)).getD []

end RegistryFront.Command
