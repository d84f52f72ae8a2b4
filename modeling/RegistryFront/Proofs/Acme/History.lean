import Mathlib.Data.Set.Card
import RegistryFront.Acme.Serving
import RegistryFront.Proofs.Table
import RegistryFront.Proofs.Text.Case

/-!
# What a handshake gets, told from what has happened

Certificates are taken into service, and answers to challenges are put up and taken down, in any
order.  A validation finds what was put up last for its domain, all other handshakes what was taken
into service last; the one has no influence on the other.
-/

namespace RegistryFront.Acme

open Tls (Certified Protocol)

/-- Something that is done to a resolver or to its board.  Whoever holds the board holds the same
one, so that it does not matter who does it. -/
inductive Change where
  | serve (certificate : Certified)
  | servePem (chainPem keyPem : String)
  | addCertificate (domain : String) (certificate : Certified)
  | removeCertificate (domain : String)
  | addText (token keyAuthorization : String)
  | removeText (token : String)

inductive Change.Subject where
  | service
  | certificates
  | texts
  deriving DecidableEq

def Change.subject : Change → Subject
  | .serve _ | .servePem .. => .service
  | .addCertificate .. | .removeCertificate _ => .certificates
  | .addText .. | .removeText _ => .texts

structure Front where
  resolver : Resolver Certified
  board : ChallengeBoard Certified

namespace Front

def fresh : Front := ⟨.idle, .empty⟩

def apply (front : Front) : Change → Front
  | .serve certificate => { front with resolver := .serve certificate }
  | .servePem chainPem keyPem =>
      { front with resolver := (front.resolver.servePem chainPem keyPem).2 }
  | .addCertificate domain certificate =>
      { front with board := front.board.addCertificate domain certificate }
  | .removeCertificate domain => { front with board := front.board.removeCertificate domain }
  | .addText token keyAuthorization =>
      { front with board := front.board.addText token keyAuthorization }
  | .removeText token => { front with board := front.board.removeText token }

def after (changes : List Change) : Front := changes.foldl apply fresh

theorem after_append_singleton (changes : List Change) (last : Change) :
    after (changes ++ [last]) = (after changes).apply last := by
  simp [after]

def select (front : Front) (serverName : Option String) (offered : List Protocol) :
    Option Certified :=
  front.resolver.select front.board serverName offered

end Front

/-! ## What has happened -/

inductive Change.Serves (certificate : Certified) : Change → Prop where
  | given : Serves certificate (.serve certificate)
  | read {chainPem keyPem : String} (h : certifiedOf chainPem keyPem = .ok certificate) :
      Serves certificate (.servePem chainPem keyPem)

/-- The latest change that took a certificate into service took this one. -/
def InService (changes : List Change) (certificate : Certified) : Prop :=
  ∃ change, Latest (fun change => ∃ any, change.Serves any) changes change ∧
    change.Serves certificate

def Change.IsAboutDomain (domain : String) : Change → Prop
  | .addCertificate other _ | .removeCertificate other => Text.Alike other domain
  | _ => False

/-- The latest change about the domain, in either case, put up this certificate. -/
def PendingCertificate (changes : List Change) (domain : String) (certificate : Certified) : Prop :=
  ∃ other, Latest (Change.IsAboutDomain domain) changes (.addCertificate other certificate)

def Change.IsAboutToken (token : String) : Change → Prop
  | .addText other _ | .removeText other => other = token
  | _ => False

def PendingText (changes : List Change) (token keyAuthorization : String) : Prop :=
  Latest (Change.IsAboutToken token) changes (.addText token keyAuthorization)

def domainSetoid : Setoid String where
  r := Text.Alike
  iseqv := by
    constructor
    · intro domain
      exact (ChallengeBoard.fold_eq_iff domain domain).mp rfl
    · intro first second h
      rw [← ChallengeBoard.fold_eq_iff] at h ⊢
      exact h.symm
    · intro first second third h h'
      rw [← ChallengeBoard.fold_eq_iff] at h h' ⊢
      exact h.trans h'

/-! ## The board -/

def Change.textEffect : Change → Table.Effect String String
  | .addText token keyAuthorization => some (token, some keyAuthorization)
  | .removeText token => some (token, none)
  | _ => none

def Change.certificateEffect : Change → Table.Effect String Certified
  | .addCertificate domain certificate => some (ChallengeBoard.fold domain, some certificate)
  | .removeCertificate domain => some (ChallengeBoard.fold domain, none)
  | _ => none

theorem Change.isAboutToken_iff (token : String) (change : Change) :
    (∃ value?, change.textEffect = some (token, value?)) ↔ change.IsAboutToken token := by
  cases change <;> simp [textEffect, IsAboutToken]

theorem Change.isAboutDomain_iff (domain : String) (change : Change) :
    (∃ value?, change.certificateEffect = some (ChallengeBoard.fold domain, value?)) ↔
      change.IsAboutDomain domain := by
  cases change <;> simp [certificateEffect, IsAboutDomain, ChallengeBoard.fold_eq_iff]

namespace Front

variable (changes : List Change)

theorem texts_after : (after changes).board.texts =
    changes.foldl (fun table change => table.undergo change.textEffect) .empty := by
  refine (List.foldl_hom (fun front : Front => front.board.texts) ?_).symm
  intro front change
  cases change <;> rfl

theorem certificates_after : (after changes).board.certificates =
    changes.foldl (fun table change => table.undergo change.certificateEffect) .empty := by
  refine (List.foldl_hom (fun front : Front => front.board.certificates) ?_).symm
  intro front change
  cases change <;> rfl

theorem text?_after (token keyAuthorization : String) :
    (after changes).board.text? token = some keyAuthorization ↔
      PendingText changes token keyAuthorization := by
  rw [ChallengeBoard.text?, texts_after, Table.get?_after, PendingText]
  simp only [Change.isAboutToken_iff]
  constructor
  · rintro ⟨change, hlatest, heffect⟩
    cases change <;> simp only [Change.textEffect, Option.some.injEq, Prod.mk.injEq,
      reduceCtorEq, and_false] at heffect
    obtain ⟨rfl, rfl⟩ := heffect
    exact hlatest
  · intro hlatest
    exact ⟨_, hlatest, rfl⟩

theorem certificate?_after (domain : String) (certificate : Certified) :
    (after changes).board.certificate? domain = some certificate ↔
      PendingCertificate changes domain certificate := by
  rw [ChallengeBoard.certificate?, certificates_after, Table.get?_after, PendingCertificate]
  simp only [Change.isAboutDomain_iff]
  constructor
  · rintro ⟨change, hlatest, heffect⟩
    cases change <;> simp only [Change.certificateEffect, Option.some.injEq, Prod.mk.injEq,
      reduceCtorEq, and_false] at heffect
    obtain ⟨-, rfl⟩ := heffect
    exact ⟨_, hlatest⟩
  · rintro ⟨other, hlatest⟩
    have hfold : ChallengeBoard.fold other = ChallengeBoard.fold domain :=
      (ChallengeBoard.fold_eq_iff other domain).mpr hlatest.about
    exact ⟨_, hlatest, by rw [Change.certificateEffect, hfold]⟩

theorem exists_domain_of_certificate {key : String} {certificate : Certified}
    (h : (after changes).board.certificates.get? key = some certificate) :
    ∃ domain, ChallengeBoard.fold domain = key := by
  rw [certificates_after, Table.get?_after] at h
  obtain ⟨change, -, heffect⟩ := h
  cases change <;> simp only [Change.certificateEffect, Option.some.injEq, Prod.mk.injEq,
    reduceCtorEq, and_false] at heffect
  exact ⟨_, heffect.1⟩

/-! ## How many are pending -/

def pendingTokens : Set String := {token | ∃ answer, PendingText changes token answer}

def pendingDomains : Set String :=
  {domain | ∃ certificate, PendingCertificate changes domain certificate}

theorem size_texts : (after changes).board.texts.size = (pendingTokens changes).ncard := by
  rw [Table.size_eq_ncard, pendingTokens]
  congr 1
  ext token
  simp [← text?_after, ChallengeBoard.text?, Option.isSome_iff_exists]

def foldClass : Quotient domainSetoid → String :=
  Quotient.lift ChallengeBoard.fold fun first second h =>
    (ChallengeBoard.fold_eq_iff first second).mpr h

theorem foldClass_injective : Function.Injective foldClass := by
  intro first second h
  induction first using Quotient.inductionOn with
  | h first =>
      induction second using Quotient.inductionOn with
      | h second =>
          exact Quotient.sound ((ChallengeBoard.fold_eq_iff first second).mp h)

theorem size_certificates : (after changes).board.certificates.size =
    (Quotient.mk domainSetoid '' pendingDomains changes).ncard := by
  have hkeys : foldClass '' (Quotient.mk domainSetoid '' pendingDomains changes) =
      {key | ((after changes).board.certificates.get? key).isSome} := by
    ext key
    simp only [Set.mem_image, exists_exists_and_eq_and, Set.mem_ofPred_eq, Option.isSome_iff_exists]
    constructor
    · rintro ⟨domain, ⟨certificate, hpending⟩, rfl⟩
      exact ⟨certificate, (certificate?_after changes domain certificate).mpr hpending⟩
    · rintro ⟨certificate, hfound⟩
      obtain ⟨domain, rfl⟩ := exists_domain_of_certificate changes hfound
      have hpending := (certificate?_after changes domain certificate).mp hfound
      exact ⟨domain, ⟨certificate, hpending⟩, rfl⟩
  rw [Table.size_eq_ncard, ← hkeys, Set.ncard_image_of_injective _ foldClass_injective]

/-! ## The certificate in service -/

theorem apply_of_serves (front : Front) {change : Change} {certificate : Certified}
    (h : change.Serves certificate) :
    (front.apply change).resolver.current = some certificate := by
  cases h with
  | given => rfl
  | read hread => simp [apply, Resolver.servePem, hread, Resolver.serve]

theorem apply_of_not_serves (front : Front) {change : Change}
    (h : ∀ certificate, ¬ change.Serves certificate) :
    (front.apply change).resolver = front.resolver := by
  cases change with
  | serve certificate => exact absurd .given (h certificate)
  | servePem chainPem keyPem =>
      cases hread : certifiedOf chainPem keyPem with
      | ok certificate => exact absurd (.read hread) (h certificate)
      | error cause => simp [apply, Resolver.servePem, hread]
  | addCertificate => rfl
  | removeCertificate => rfl
  | addText => rfl
  | removeText => rfl

theorem current_after (certificate : Certified) :
    (after changes).resolver.current = some certificate ↔ InService changes certificate := by
  unfold InService
  induction changes using List.reverseRecOn with
  | nil => simp [not_latest_nil, after, fresh, Resolver.idle]
  | append_singleton changes last ih =>
      rw [after_append_singleton]
      simp only [latest_append_singleton]
      by_cases hserves : ∃ any, last.Serves any
      · obtain ⟨any, hany⟩ := hserves
        rw [apply_of_serves _ hany, Option.some_inj]
        constructor
        · rintro rfl
          exact ⟨last, .inl ⟨⟨any, hany⟩, rfl⟩, hany⟩
        · rintro ⟨change, ⟨-, rfl⟩ | ⟨hnot, -⟩, hchange⟩
          · have hsame := apply_of_serves (after changes) hchange
            rw [apply_of_serves _ hany] at hsame
            exact Option.some.inj hsame
          · exact absurd ⟨any, hany⟩ hnot
      · rw [apply_of_not_serves _ (not_exists.mp hserves), ih]
        simp [hserves]

/-! ## What a handshake gets -/

theorem certificate?_eq_of_filter {first second : List Change}
    (h : first.filter (·.subject = .certificates) = second.filter (·.subject = .certificates))
    (domain : String) :
    (after first).board.certificate? domain = (after second).board.certificate? domain := by
  have hkeep : ∀ change : Change, change.IsAboutDomain domain →
      decide (change.subject = .certificates) = true := by
    intro change habout
    cases change <;> first | rfl | exact absurd habout id
  ext certificate
  rw [certificate?_after, certificate?_after, PendingCertificate, PendingCertificate]
  simp only [← latest_filter hkeep first, ← latest_filter hkeep second, h]

theorem current_eq_of_filter {first second : List Change}
    (h : first.filter (·.subject = .service) = second.filter (·.subject = .service)) :
    (after first).resolver.current = (after second).resolver.current := by
  have hkeep : ∀ change : Change, (∃ any, change.Serves any) →
      decide (change.subject = .service) = true := by
    rintro change ⟨any, hserves⟩
    cases hserves <;> rfl
  ext certificate
  rw [current_after, current_after, InService, InService]
  simp only [← latest_filter hkeep first, ← latest_filter hkeep second, h]

theorem select_validation (front : Front) (serverName : Option String) :
    front.select serverName [.acmeChallenge] = serverName.bind front.board.certificate? := rfl

theorem select_regular (front : Front) (serverName : Option String) {offered : List Protocol}
    (h : offered ≠ [.acmeChallenge]) :
    front.select serverName offered = front.resolver.current := by
  rw [select, Resolver.select, Resolver.isValidation, if_neg (by simpa using h)]

/-- After whatever has happened, a validation gets the certificate that is pending for the domain,
and only changes to the certificates on the board decide which that is.  Every other handshake gets
the one in service, whatever it offers and whomever it asks for, and only changes to the service
decide that.  What is pending is counted by tokens and by domains. -/
theorem select_after_changes (serverName : Option String) (offered : List Protocol) :
    (offered = [.acmeChallenge] →
      (∀ certificate, (after changes).select serverName offered = some certificate ↔
        ∃ name, serverName = some name ∧ PendingCertificate changes name certificate) ∧
      ∀ others : List Change,
        others.filter (·.subject = .certificates) = changes.filter (·.subject = .certificates) →
        (after others).select serverName offered = (after changes).select serverName offered) ∧
    (offered ≠ [.acmeChallenge] →
      (∀ certificate, (after changes).select serverName offered = some certificate ↔
        InService changes certificate) ∧
      ∀ (others : List Change) (otherName : Option String) (otherOffered : List Protocol),
        otherOffered ≠ [.acmeChallenge] →
        others.filter (·.subject = .service) = changes.filter (·.subject = .service) →
        (after others).select otherName otherOffered =
          (after changes).select serverName offered) ∧
    (after changes).board.pending = (pendingTokens changes).ncard +
      (Quotient.mk domainSetoid '' pendingDomains changes).ncard := by
  refine ⟨?_, ?_, ?_⟩
  · rintro rfl
    constructor
    · intro certificate
      rw [select_validation, Option.bind_eq_some_iff]
      simp only [certificate?_after]
    · intro others hothers
      rw [select_validation, select_validation]
      congr 1
      funext name
      exact certificate?_eq_of_filter hothers name
  · intro hregular
    constructor
    · intro certificate
      rw [select_regular _ _ hregular, current_after]
    · intro others otherName otherOffered hother hothers
      rw [select_regular _ _ hregular, select_regular _ _ hother]
      exact current_eq_of_filter hothers
  · rw [ChallengeBoard.pending, size_texts, size_certificates]

end Front

end RegistryFront.Acme
