import RegistryFront.Startup.Identity

/-!
# A start does not fall back

The variables alone decide whether an authority is asked.  If one is to be asked, the identity comes
from it or there is none, whatever goes wrong; the pair in files has no part in that.
-/

namespace RegistryFront

open X509 (Anchor)

/-! ## Roots of a file -/

namespace Trust

inductive Useless (disk : Files.Disk) (path : String) : StaticPair.Error → Prop where
  | unreadable {cause : Files.FileError} (hread : disk.read path = .error cause) :
      Useless disk path (.read path cause)
  | noAnchor {text : Bytes} (hread : disk.read path = .ok text)
      (hnone : ∀ certificate ∈ Pem.certificates text, Anchor.ofCertificate? certificate = none) :
      Useless disk path (.noCertificates path)

theorem anchors_eq_nil_iff (certificates : List Bytes) :
    anchors certificates = [] ↔
      ∀ certificate ∈ certificates, Anchor.ofCertificate? certificate = none := by
  simp [anchors, List.filterMap_eq_nil_iff]

theorem rootsWith_eq_error_iff {system : List Anchor} {disk : Files.Disk} {path : String}
    {cause : StaticPair.Error} :
    rootsWith system disk path = .error cause ↔ Useless disk path cause := by
  unfold rootsWith
  constructor
  · intro h
    cases hread : disk.read path with
    | error fault =>
        simp only [hread, Except.error.injEq] at h
        subst h
        exact .unreadable hread
    | ok text =>
        simp only [hread] at h
        split at h
        · next hnil =>
            cases h
            exact .noAnchor hread ((anchors_eq_nil_iff _).mp hnil)
        · cases h
  · intro h
    cases h with
    | unreadable hread => rw [hread]
    | noAnchor hread hnone =>
        rw [hread]
        exact if_pos ((anchors_eq_nil_iff _).mpr hnone)

theorem rootsWith_eq_ok_iff {system roots : List Anchor} {disk : Files.Disk} {path : String} :
    rootsWith system disk path = .ok roots ↔ ∃ text, disk.read path = .ok text ∧
      anchors (Pem.certificates text) ≠ [] ∧
      roots = system ++ anchors (Pem.certificates text) := by
  unfold rootsWith
  cases disk.read path with
  | error => simp
  | ok text =>
      dsimp only
      split
      · next hnil => simp [hnil]
      · next hsome =>
          constructor
          · intro h
            exact ⟨text, rfl, hsome, (Except.ok.inj h).symm⟩
          · rintro ⟨_, hread, -, rfl⟩
            cases hread
            rfl

end Trust

namespace Startup

variable {σ : Type}

/-! ## The settings -/

def RootsUseless (disk : Files.Disk) (config : Acme.Config) (cause : StaticPair.Error) : Prop :=
  ∃ path, config.caRootPath = some path ∧ Trust.Useless disk path cause

structure Follows (system : List Anchor) (disk : Files.Disk) (config : Acme.Config)
    (settings : Acme.Settings (List Anchor)) : Prop where
  email : settings.email = config.email
  directoryUrl : settings.directoryUrl? = config.ca
  httpPort : settings.httpPort? = config.httpPort
  tlsAlpnPort : settings.tlsAlpnPort = config.tlsAlpnPort.getD 8443
  storagePath : settings.storagePath = config.storagePath
  defaultRoots : config.caRootPath = none → settings.trustedRoots = none
  addedRoots : ∀ path, config.caRootPath = some path → ∃ text, disk.read path = .ok text ∧
    settings.trustedRoots = some (system ++ Trust.anchors (Pem.certificates text))

theorem settingsFor_spec (system : List Anchor) (disk : Files.Disk) (config : Acme.Config) :
    (∃ cause, settingsFor system disk config = .error (.caRoot cause) ∧
      RootsUseless disk config cause) ∨
    ∃ settings, settingsFor system disk config = .ok settings ∧
      Follows system disk config settings ∧ ∀ cause, ¬ RootsUseless disk config cause := by
  unfold settingsFor
  cases hpath : config.caRootPath with
  | none =>
      refine .inr ⟨_, rfl, ⟨rfl, rfl, rfl, rfl, rfl, fun _ => rfl, ?_⟩, ?_⟩
      · intro path h
        simp [hpath] at h
      · rintro cause ⟨path, h, -⟩
        simp [hpath] at h
  | some path =>
      dsimp only
      cases hroots : Trust.rootsWith system disk path with
      | error cause => exact .inl ⟨cause, rfl, path, hpath, Trust.rootsWith_eq_error_iff.mp hroots⟩
      | ok roots =>
          obtain ⟨text, hread, -, rfl⟩ := Trust.rootsWith_eq_ok_iff.mp hroots
          refine .inr ⟨_, rfl, ⟨rfl, rfl, rfl, rfl, rfl, ?_, ?_⟩, ?_⟩
          · intro h
            simp [hpath] at h
          · intro other h
            obtain rfl : path = other := Option.some.inj (hpath.symm.trans h)
            exact ⟨text, hread, rfl⟩
          · rintro cause ⟨other, h, huseless⟩
            obtain rfl : path = other := Option.some.inj (hpath.symm.trans h)
            rw [Trust.rootsWith_eq_error_iff.mpr huseless] at hroots
            cases hroots

/-! ## The authority -/

section

variable {issuer : Issuer σ} {system : List Anchor} {config : Acme.Config} {world after : World σ}

inductive Asks (issuer : Issuer σ) (system : List Anchor) (config : Acme.Config) (world : World σ) :
    Option Question → Except SetupError Tls.ServerSetup × World σ → Prop where
  | useless {cause : StaticPair.Error} (huseless : RootsUseless world.drive.disk config cause) :
      Asks issuer system config world none (.error (.caRoot cause), world)
  | granted {settings : Acme.Settings (List Anchor)} {setup : Tls.ServerSetup} {after : World σ}
      (huseful : ∀ cause, ¬ RootsUseless world.drive.disk config cause)
      (hfollows : Follows system world.drive.disk config settings)
      (hasked : issuer.setup settings config.domains world = (.ok setup, after)) :
      Asks issuer system config world (some (settings, config.domains))
        (.ok ⟨setup.source, .named "h2" :: .named "http/1.1" :: setup.protocols⟩, after)
  | refused {settings : Acme.Settings (List Anchor)} {cause : Acme.IssueError} {after : World σ}
      (huseful : ∀ cause, ¬ RootsUseless world.drive.disk config cause)
      (hfollows : Follows system world.drive.disk config settings)
      (hasked : issuer.setup settings config.domains world = (.error cause, after)) :
      Asks issuer system config world (some (settings, config.domains))
        (.error (.issuer cause), after)

theorem setupFor_asks (issuer : Issuer σ) (system : List Anchor) (config : Acme.Config)
    (world : World σ) : ∃ question?,
      Asks issuer system config world question? (setupFor issuer system config world) := by
  unfold setupFor
  obtain ⟨cause, hsettings, huseless⟩ | ⟨settings, hsettings, hfollows, huseful⟩ :=
    settingsFor_spec system world.drive.disk config
  · rw [hsettings]
    exact ⟨none, .useless huseless⟩
  · rw [hsettings]
    refine ⟨some (settings, config.domains), ?_⟩
    rcases hasked : issuer.setup settings config.domains world with ⟨cause | setup, after⟩
    · simp only [hasked]
      exact .refused huseful hfollows hasked
    · simp only [hasked]
      exact .granted huseful hfollows hasked

theorem Asks.eq_none_iff {question? : Option Question}
    {answer : Except SetupError Tls.ServerSetup × World σ}
    (h : Asks issuer system config world question? answer) :
    question? = none ↔ ∃ cause, RootsUseless world.drive.disk config cause := by
  cases h with
  | useless huseless => exact iff_of_true rfl ⟨_, huseless⟩
  | granted huseful => simpa using huseful
  | refused huseful => simpa using huseful

theorem Asks.of_recording {world after : World (List Question × σ)} {question? : Option Question}
    {made : Except SetupError Tls.ServerSetup}
    (h : Asks issuer.recording system config world question? (made, after)) :
    Asks issuer system config ⟨world.drive, world.inner.2⟩ question?
        (made, ⟨after.drive, after.inner.2⟩) ∧
      after.inner.1 = world.inner.1 ++ question?.toList := by
  cases h with
  | useless huseless => exact ⟨.useless huseless, by simp⟩
  | granted huseful hfollows hasked =>
      obtain ⟨hresult, rfl⟩ := Prod.mk.inj hasked
      exact ⟨.granted huseful hfollows (Prod.ext hresult rfl), rfl⟩
  | refused huseful hfollows hasked =>
      obtain ⟨hresult, rfl⟩ := Prod.mk.inj hasked
      exact ⟨.refused huseful hfollows (Prod.ext hresult rfl), rfl⟩

theorem acmeEnabled_of_setupFor {cause : SetupError}
    (h : setupFor issuer system config world = (.error cause, after)) :
    cause.acmeEnabled = true := by
  obtain ⟨question?, hasks⟩ := setupFor_asks issuer system config world
  rw [h] at hasks
  cases hasks <;> rfl

theorem acmeEnabled_of_setupFrom
    {config : Except Environment.ConfigError (Option Acme.Config)} {cause : SetupError}
    (h : setupFrom issuer system config world = (.error cause, after)) :
    cause.acmeEnabled = true ↔ ∃ found, config = .ok (some found) := by
  unfold setupFrom at h
  cases config with
  | error fault =>
      cases h
      simp [SetupError.acmeEnabled]
  | ok found =>
      cases found with
      | none => cases h
      | some found =>
          rcases hsetup : setupFor issuer system found world with ⟨fault | setup, later⟩
          · simp only [hsetup, Except.map] at h
            cases h
            simp [acmeEnabled_of_setupFor hsetup]
          · simp [hsetup, Except.map] at h

end

/-! ## The identity -/

section

variable (issuer : Issuer σ) (around : Surroundings) (location : StaticPair.Location)

theorem prepareFrom_some (config : Acme.Config) (world : World σ) :
    prepareFrom issuer around (.ok (some config)) location world =
      let (made, after) := setupFor issuer around.systemRoots config world
      ((made.map .acme).mapError .acme, after) := by
  unfold prepareFrom setupFrom
  rcases hsetup : setupFor issuer around.systemRoots config world with ⟨_ | _, after⟩ <;>
    simp only [hsetup] <;> rfl

/-- The weaker identity is for those who do not ask for the authority; the rest get theirs from the
authority or none. -/
theorem prepare_without_downgrade (vars : List Environment.Variable)
    (world : World (List Question × σ)) :
    let (result, after) := prepare issuer.recording around vars location world
    (∀ setup outcome, result = .ok (.selfSigned setup outcome) →
      Acme.Config.ofVariables vars = .ok none) ∧
    (Acme.Config.ofVariables vars = .ok none → after.inner = world.inner) ∧
    (∀ cause, Acme.Config.ofVariables vars = .error cause →
      result = .error (.acme (.config cause)) ∧ after = world) ∧
    (∀ config, Acme.Config.ofVariables vars = .ok (some config) →
      (∃ question? made,
        Asks issuer around.systemRoots config ⟨world.drive, world.inner.2⟩ question?
          (made, ⟨after.drive, after.inner.2⟩) ∧
        after.inner.1 = world.inner.1 ++ question?.toList ∧
        (question? = none ↔ ∃ cause, RootsUseless world.drive.disk config cause) ∧
        result = (made.map .acme).mapError .acme) ∧
      ∀ now entropy elsewhere,
        prepare issuer.recording ⟨now, entropy, around.systemRoots⟩ vars elsewhere world =
          (result, after)) ∧
    ∀ (any : Issuer σ) (here later : World σ) (cause : SetupError),
      setupFrom any around.systemRoots (Acme.Config.ofVariables vars) here = (.error cause, later) →
      (cause.acmeEnabled = true ↔ ∃ config, Acme.Config.ofVariables vars = .ok (some config)) := by
  unfold prepare
  generalize Acme.Config.ofVariables vars = read
  have herrors (any : Issuer σ) (here later : World σ) (cause : SetupError)
      (h : setupFrom any around.systemRoots read here = (.error cause, later)) :
      cause.acmeEnabled = true ↔ ∃ config, read = .ok (some config) := acmeEnabled_of_setupFrom h
  cases read with
  | error cause =>
      refine ⟨nofun, nofun, ?_, nofun, herrors⟩
      intro fault hfault
      cases hfault
      exact ⟨rfl, rfl⟩
  | ok found =>
      cases found with
      | none => exact ⟨fun _ _ _ => rfl, fun _ => rfl, nofun, nofun, herrors⟩
      | some config =>
          obtain ⟨question?, hasks⟩ :=
            setupFor_asks issuer.recording around.systemRoots config world
          simp only [prepareFrom_some]
          generalize setupFor issuer.recording around.systemRoots config world = asked at hasks ⊢
          obtain ⟨made, after⟩ := asked
          obtain ⟨hissuer, hquestions⟩ := hasks.of_recording
          refine ⟨?_, nofun, nofun, ?_, herrors⟩
          · intro setup outcome hresult
            cases made <;> cases hresult
          · rintro _ ⟨⟩
            refine ⟨⟨question?, made, hissuer, hquestions, hissuer.eq_none_iff, rfl⟩, ?_⟩
            exact fun _ _ _ => trivial

end

end Startup

end RegistryFront
