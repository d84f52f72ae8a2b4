import RegistryFront.Proofs.Acme.Fields
import RegistryFront.Proofs.Environment.Value

/-!
# What the variables decide

The eight fields together decide whether the authority is used and how, and which of several faults
is reported: a field that is set twice before anything else, then the flag, the missing domains, the
port for answering in plain text and the port for answering in a handshake.
-/

namespace RegistryFront.Acme

open Environment

theorem Field.variableName_eq (field : Field) : field.variableName =
    match field with
    | .domains => "REGISTRY_ACME_DOMAINS"
    | .enable => "REGISTRY_ACME_ENABLE"
    | .email => "REGISTRY_ACME_EMAIL"
    | .ca => "REGISTRY_ACME_CA"
    | .caRoot => "REGISTRY_ACME_CA_ROOT"
    | .storage => "REGISTRY_ACME_STORAGE"
    | .httpPort => "REGISTRY_ACME_HTTP_PORT"
    | .tlsAlpnPort => "REGISTRY_ACME_TLS_ALPN_PORT" := by
  cases field <;> decide +kernel

namespace Config

/-- What the values of the fields decide, in the order in which faults are found. -/
inductive Decides (value : Field → Option String) : Except ConfigError (Option Config) → Prop
  | unknownFlag {text : String} (htext : trimmed? (value .enable) = some text)
      (htrue : text ∉ trueSpellings) (hfalse : text ∉ falseSpellings) :
      Decides value (.error (.invalidFlag "REGISTRY_ACME_ENABLE" text))
  | notAsked (hflag : Flagged (value .enable) false false)
      (hdomains : splitList ((value .domains).getD "") = []) :
      Decides value (.ok none)
  | noDomains (hflag : Flagged (value .enable) false true)
      (hdomains : splitList ((value .domains).getD "") = []) :
      Decides value (.error (.missingDomains "REGISTRY_ACME_DOMAINS" "REGISTRY_ACME_ENABLE"))
  | badHttpPort {enabled : Bool} {text : String} (hflag : Flagged (value .enable) false enabled)
      (hdomains : splitList ((value .domains).getD "") ≠ [])
      (htext : trimmed? (value .httpPort) = some text) (hport : ∀ port, ¬ WritesPort text port) :
      Decides value (.error (.invalidPort "REGISTRY_ACME_HTTP_PORT" text))
  | badTlsAlpnPort {enabled : Bool} {httpPort : Option Nat} {text : String}
      (hflag : Flagged (value .enable) false enabled)
      (hdomains : splitList ((value .domains).getD "") ≠ [])
      (hhttp : Ported (value .httpPort) httpPort)
      (htext : trimmed? (value .tlsAlpnPort) = some text) (hport : ∀ port, ¬ WritesPort text port) :
      Decides value (.error (.invalidPort "REGISTRY_ACME_TLS_ALPN_PORT" text))
  | configured {enabled : Bool} {config : Config} (hflag : Flagged (value .enable) false enabled)
      (hdomains : config.domains = splitList ((value .domains).getD ""))
      (hemail : config.email = trimmed? (value .email))
      (hca : config.ca = trimmed? (value .ca))
      (hcaRoot : config.caRootPath = trimmed? (value .caRoot))
      (hstorage : config.storagePath = trimmed? (value .storage))
      (hhttp : Ported (value .httpPort) config.httpPort)
      (htlsAlpn : Ported (value .tlsAlpnPort) config.tlsAlpnPort) :
      Decides value (.ok (some config))

theorem decides_ofRawFields (raw : RawFields) :
    Decides (fun field => raw.lookup field) (ofRawFields raw) := by
  simp only [ofRawFields, Field.variableName_eq, bind, Except.bind]
  cases hflag : parseFlag "REGISTRY_ACME_ENABLE" (raw.lookup .enable) false with
  | error failure =>
      obtain ⟨text, htext, htrue, hfalse, rfl⟩ := parseFlag_eq_error_iff.mp hflag
      exact .unknownFlag htext htrue hfalse
  | ok enabled =>
      have hflag := parseFlag_eq_ok_iff.mp hflag
      by_cases hdomains : splitList ((raw.lookup .domains).getD "") = []
      · simp only [dif_pos hdomains]
        cases enabled with
        | true => exact .noDomains hflag hdomains
        | false => exact .notAsked hflag hdomains
      · simp only [dif_neg hdomains]
        cases hhttp : parsePort "REGISTRY_ACME_HTTP_PORT" (raw.lookup .httpPort) with
        | error failure =>
            obtain ⟨text, htext, hport, rfl⟩ := parsePort_eq_error_iff.mp hhttp
            exact .badHttpPort hflag hdomains htext hport
        | ok httpPort =>
            have hhttp := parsePort_eq_ok_iff.mp hhttp
            cases htls : parsePort "REGISTRY_ACME_TLS_ALPN_PORT" (raw.lookup .tlsAlpnPort) with
            | error failure =>
                obtain ⟨text, htext, hport, rfl⟩ := parsePort_eq_error_iff.mp htls
                exact .badTlsAlpnPort hflag hdomains hhttp htext hport
            | ok tlsAlpnPort =>
                have htls := parsePort_eq_ok_iff.mp htls
                exact .configured hflag rfl rfl rfl rfl rfl hhttp htls

theorem ofRawFields_eq_of_decides {raw : RawFields} {result : Except ConfigError (Option Config)}
    (h : Decides (fun field => raw.lookup field) result) : ofRawFields raw = result := by
  simp only [ofRawFields, Field.variableName_eq, bind, Except.bind]
  cases h with
  | unknownFlag htext htrue hfalse =>
      rw [parseFlag_eq_error_iff.mpr ⟨_, htext, htrue, hfalse, rfl⟩]
  | notAsked hflag hdomains =>
      rw [parseFlag_eq_ok_iff.mpr hflag]
      simp only [dif_pos hdomains, Bool.false_eq_true, if_false]
  | noDomains hflag hdomains =>
      rw [parseFlag_eq_ok_iff.mpr hflag]
      simp only [dif_pos hdomains, if_true]
  | badHttpPort hflag hdomains htext hport =>
      rw [parseFlag_eq_ok_iff.mpr hflag]
      simp only [dif_neg hdomains, parsePort_eq_error_iff.mpr ⟨_, htext, hport, rfl⟩]
  | badTlsAlpnPort hflag hdomains hhttp htext hport =>
      rw [parseFlag_eq_ok_iff.mpr hflag]
      simp only [dif_neg hdomains, parsePort_eq_ok_iff.mpr hhttp,
        parsePort_eq_error_iff.mpr ⟨_, htext, hport, rfl⟩]
  | @configured _ config hflag hdomains hemail hca hcaRoot hstorage hhttp htls =>
      rw [parseFlag_eq_ok_iff.mpr hflag]
      simp only [← hdomains, dif_neg config.domains_ne_nil, parsePort_eq_ok_iff.mpr hhttp,
        parsePort_eq_ok_iff.mpr htls, ← hemail, ← hca, ← hcaRoot, ← hstorage]

/-! ## Every configuration -/

structure WellFormed (config : Config) : Prop where
  domains_ne_nil : config.domains ≠ []
  isEntry : ∀ domain ∈ config.domains, IsEntry domain
  primaryDomain : config.domains.head? = some config.primaryDomain
  isValue : ∀ text, config.email = some text ∨ config.ca = some text ∨
    config.caRootPath = some text ∨ config.storagePath = some text → IsValue text
  isPort : ∀ port, config.httpPort = some port ∨ config.tlsAlpnPort = some port →
    1 ≤ port ∧ port ≤ 65535

theorem le_of_ported {raw : Option String} {port : Nat} (h : Ported raw (some port)) :
    1 ≤ port ∧ port ≤ 65535 := by
  cases h with
  | written htext hport => exact hport.2

theorem wellFormed_of_decides {value : Field → Option String} {config : Config}
    (h : Decides value (.ok (some config))) : WellFormed config := by
  cases h with
  | configured hflag hdomains hemail hca hcaRoot hstorage hhttp htls =>
      refine ⟨config.domains_ne_nil, ?_, List.head?_eq_some_head config.domains_ne_nil, ?_, ?_⟩
      · intro domain hmem
        rw [hdomains] at hmem
        exact isEntry_of_mem_splitList hmem
      · rintro text (htext | htext | htext | htext)
        · exact isValue_of_trimmed? (hemail.symm.trans htext)
        · exact isValue_of_trimmed? (hca.symm.trans htext)
        · exact isValue_of_trimmed? (hcaRoot.symm.trans htext)
        · exact isValue_of_trimmed? (hstorage.symm.trans htext)
      · rintro port (hport | hport)
        · exact le_of_ported (hport ▸ hhttp)
        · exact le_of_ported (hport ▸ htls)

/-! ## All variables -/

theorem ofVariables_of_unambiguous {vars : List Variable} (h : Unambiguous vars) :
    ofVariables vars = ofRawFields (fieldsOf vars) := by
  rw [ofVariables, gather_of_unambiguous h]
  rfl

/-- A field that is set twice is reported at the first variable that sets one again.  Otherwise the
values of the fields decide, and what they give is a configuration only if it is well-formed. -/
theorem ofVariables_decides (vars : List Variable) :
    (¬ Unambiguous vars → ∃ before again after field,
      vars = before ++ again :: after ∧ Unambiguous before ∧ Field.SetBy field again.1 ∧
        (∃ earlier ∈ before, Field.SetBy field earlier.1) ∧
        ofVariables vars = .error (.gather (.duplicateField field.name))) ∧
    (Unambiguous vars → ∃ value, Gives vars value ∧
      ∀ result, ofVariables vars = result ↔ Decides value result) ∧
    ∀ config, ofVariables vars = .ok (some config) → WellFormed config := by
  have hrepeat : ¬ Unambiguous vars → ∃ before again after field,
      vars = before ++ again :: after ∧ Unambiguous before ∧ Field.SetBy field again.1 ∧
        (∃ earlier ∈ before, Field.SetBy field earlier.1) ∧
        ofVariables vars = .error (.gather (.duplicateField field.name)) := by
    intro h
    obtain ⟨before, again, after, field, hvars, hbefore, hagain, earlier, hmem, hearlier⟩ :=
      exists_first_repeat h
    refine ⟨before, again, after, field, hvars, hbefore, hagain, ⟨earlier, hmem, hearlier⟩, ?_⟩
    rw [ofVariables, hvars, gather_of_repeat after hbefore hagain hmem hearlier]
    rfl
  have hdecides : Unambiguous vars → ∃ value, Gives vars value ∧
      ∀ result, ofVariables vars = result ↔ Decides value result := by
    intro h
    refine ⟨_, gives_lookup_fieldsOf h, fun result => ?_⟩
    rw [ofVariables_of_unambiguous h]
    constructor
    · rintro rfl
      exact decides_ofRawFields (fieldsOf vars)
    · exact ofRawFields_eq_of_decides
  refine ⟨hrepeat, hdecides, fun config hconfig => ?_⟩
  by_cases h : Unambiguous vars
  · obtain ⟨value, -, hvalue⟩ := hdecides h
    exact wellFormed_of_decides ((hvalue _).mp hconfig)
  · obtain ⟨before, again, after, field, -, -, -, -, herror⟩ := hrepeat h
    rw [herror] at hconfig
    cases hconfig

end Config

end RegistryFront.Acme
