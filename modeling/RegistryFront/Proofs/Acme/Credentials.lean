import RegistryFront.Acme.Credentials
import RegistryFront.Proofs.Base64.Strict
import RegistryFront.Proofs.Json.Blocks
import RegistryFront.Proofs.Keys.PrivateKey

/-!
# Credentials come back from their text

What is written for a new account is read as its address, its key and the directory of the authority.
-/

namespace RegistryFront.Acme.Credentials

open Json (Step)
open Json.Step (Entry Gathers)

def tail (value : Json.Value) : List Char := ':' :: ' ' :: value.prettyChars 1

def entries (credentials : Credentials) : List Entry :=
  [("id", tail (.string credentials.id)),
    ("key_pkcs8", tail (.string (urlName credentials.keyBytes))),
    ("directory", tail ((credentials.directory.map .string).getD .null))]

theorem toList_write (credentials : Credentials) :
    credentials.write.toList =
      Json.block 0 '\x7b' '\x7d' (credentials.entries.map Entry.chars) := by
  rw [write, Json.Value.pretty, String.toList_ofList]
  rfl

/-! ## Fields -/

theorem encode_urlName (bytes : List UInt8) :
    Text.Utf8.encode (urlName bytes) = Base64.urlSafe.encodeBare bytes := by
  rw [Text.Utf8.encode, urlName, String.toList_ofList]
  exact Text.Utf8.encodeChars_map_ofNat fun b => Base64.lt_of_mem_encodeBare

theorem takes_keyBytes (bytes : List UInt8) :
    keyStep.Takes (Json.stringChars (urlName bytes)) bytes :=
  Step.takes_stringAs (by rw [encode_urlName, Base64.decodeStrict_encodeBare]; rfl)

theorem takes_directory (directory : Option String) :
    (Step.optional Step.string).Takes
      (((directory.map Json.Value.string).getD .null).prettyChars 1) directory := by
  cases directory with
  | none => exact Step.takes_optional_null _
  | some url => exact Step.takes_optional_string url

theorem gathers_entries (credentials : Credentials) :
    Gathers field ⟨none, none, none, none⟩ credentials.entries
      ⟨some credentials.id, some credentials.keyBytes, some credentials.directory, none⟩ := by
  have hid : (field "id" ⟨none, none, none, none⟩).Takes (tail (.string credentials.id))
      ⟨some credentials.id, none, none, none⟩ :=
    (Step.takes_once (Step.skipsBlank_stringAs _ _) (Step.takes_string credentials.id)).map
      fun id => (⟨id, none, none, none⟩ : Fields)
  have hkey : (field "key_pkcs8" ⟨some credentials.id, none, none, none⟩).Takes
      (tail (.string (urlName credentials.keyBytes)))
      ⟨some credentials.id, some credentials.keyBytes, none, none⟩ :=
    (Step.takes_once (Step.skipsBlank_stringAs _ _) (takes_keyBytes credentials.keyBytes)).map
      fun bytes => (⟨some credentials.id, bytes, none, none⟩ : Fields)
  have hdirectory : (field "directory"
      ⟨some credentials.id, some credentials.keyBytes, none, none⟩).Takes
      (tail ((credentials.directory.map .string).getD .null))
      ⟨some credentials.id, some credentials.keyBytes, some credentials.directory, none⟩ :=
    (Step.takes_once (Step.skipsBlank_optional _) (takes_directory credentials.directory)).map
      fun directory =>
        (⟨some credentials.id, some credentials.keyBytes, directory, none⟩ : Fields)
  exact .cons hid (.cons hkey (.cons hdirectory .nil))

theorem read_write (credentials : Credentials) :
    read credentials.write = .ok { credentials with endpoints := none } := by
  refine Json.parse_of_takes ?_
  rw [toList_write]
  exact Step.takes_record (gathers_entries credentials) rfl

/-! ## Accounts -/

theorem read_ofAccount (account : Account) (directoryUrl : String) :
    read (ofAccount account directoryUrl).write = .ok (ofAccount account directoryUrl) :=
  read_write _

theorem key_ofAccount {account : Account} (hcurve : account.key.curve = .p256)
    (directoryUrl : String) : (ofAccount account directoryUrl).key = .ok account.key := by
  have hread : Keys.PrivateKey.readWrapped (ofAccount account directoryUrl).keyBytes =
      some (.curve account.key) := Keys.PrivateKey.readWrapped_write account.key
  rw [key, hread]
  exact if_pos hcurve

theorem read_empty : ∃ cause, read "" = .error cause := ⟨_, rfl⟩

end RegistryFront.Acme.Credentials
