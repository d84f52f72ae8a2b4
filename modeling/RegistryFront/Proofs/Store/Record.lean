import RegistryFront.Proofs.Json.Blocks
import RegistryFront.Proofs.Time.Rfc3339
import RegistryFront.Store.Record

/-!
# The record of a certificate comes back from its text
-/

namespace RegistryFront.Store.Record

open Json (Step)
open Json.Step (Entry Gathers)

def tail (value : Json.Value) : List Char := ':' :: ' ' :: value.prettyChars 1

def entries (record : Record) : List Entry :=
  [("expires", tail (.string (Time.Rfc3339.write record.expires))),
    ("issued", tail (.string (Time.Rfc3339.write record.issued))),
    ("domains", tail (.list (record.domains.map .string))),
    ("directory_url", tail ((record.directoryUrl.map .string).getD .null))]

theorem toList_write (record : Record) :
    record.write.toList = Json.block 0 '\x7b' '\x7d' (record.entries.map Entry.chars) := by
  rw [write, Json.Value.pretty, String.toList_ofList]
  rfl

theorem prettyItems_string (level : Nat) (texts : List String) :
    Json.Value.prettyItems level (texts.map .string) = texts.map Json.stringChars := by
  induction texts with
  | nil => rfl
  | cons text texts ih =>
      simp only [List.map_cons, Json.Value.prettyItems, Json.Value.prettyChars, ih]

/-! ## Fields -/

theorem takes_instant (t : Time.Instant) :
    instant.Takes (Json.stringChars (Time.Rfc3339.write t)) t :=
  Step.takes_stringAs (by rw [Time.Rfc3339.read_write]; rfl)

theorem takes_directoryUrl (url : Option String) :
    (Step.optional Step.string).Takes
      (((url.map Json.Value.string).getD .null).prettyChars 1) url := by
  cases url with
  | none => exact Step.takes_optional_null _
  | some url => exact Step.takes_optional_string url

theorem takes_domains (domains : List String) :
    (Step.list Step.string).Takes
      ((Json.Value.list (domains.map .string)).prettyChars 1) domains := by
  rw [Json.Value.prettyChars, prettyItems_string]
  exact Step.takes_list_string 1 domains

theorem gathers_entries (record : Record) :
    Gathers field ⟨none, none, none, none⟩ record.entries
      ⟨some record.expires, some record.issued, some record.domains, some record.directoryUrl⟩ := by
  have hexpires : (field "expires" ⟨none, none, none, none⟩).Takes
      (tail (.string (Time.Rfc3339.write record.expires)))
      ⟨some record.expires, none, none, none⟩ :=
    (Step.takes_once (Step.skipsBlank_stringAs _ _) (takes_instant record.expires)).map
      fun expires => (⟨expires, none, none, none⟩ : Fields)
  have hissued : (field "issued" ⟨some record.expires, none, none, none⟩).Takes
      (tail (.string (Time.Rfc3339.write record.issued)))
      ⟨some record.expires, some record.issued, none, none⟩ :=
    (Step.takes_once (Step.skipsBlank_stringAs _ _) (takes_instant record.issued)).map
      fun issued => (⟨some record.expires, issued, none, none⟩ : Fields)
  have hdomains : (field "domains" ⟨some record.expires, some record.issued, none, none⟩).Takes
      (tail (.list (record.domains.map .string)))
      ⟨some record.expires, some record.issued, some record.domains, none⟩ :=
    (Step.takes_once (Step.skipsBlank_list _) (takes_domains record.domains)).map
      fun domains => (⟨some record.expires, some record.issued, domains, none⟩ : Fields)
  have hurl : (field "directory_url"
      ⟨some record.expires, some record.issued, some record.domains, none⟩).Takes
      (tail ((record.directoryUrl.map .string).getD .null))
      ⟨some record.expires, some record.issued, some record.domains,
        some record.directoryUrl⟩ :=
    (Step.takes_once (Step.skipsBlank_optional _) (takes_directoryUrl record.directoryUrl)).map
      fun url =>
        (⟨some record.expires, some record.issued, some record.domains, url⟩ : Fields)
  exact .cons hexpires (.cons hissued (.cons hdomains (.cons hurl .nil)))

theorem takes_write (record : Record) : step.Takes record.write.toList record := by
  rw [toList_write]
  exact Step.takes_record (gathers_entries record) rfl

theorem read_write (record : Record) : read record.write = .ok record :=
  Json.parse_of_takes (takes_write record)

end RegistryFront.Store.Record
