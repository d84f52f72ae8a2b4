import RegistryFront.Acme.Client
import RegistryFront.Proofs.Pem.Blocks
import RegistryFront.Proofs.Startup.Identity

/-!
# Roots of one's own

Whoever names a file of roots trusts what the system trusts and what the file adds to that.  A file
that cannot be read or adds nothing is an error, so that it is never taken for no file at all; only
without a file are the roots trusted that come with the program.
-/

namespace RegistryFront

open X509 (Anchor)

namespace Trust

inductive Enlists : List Pem.Item → List Anchor → Prop where
  | nil : Enlists [] []
  | usable {der : Bytes} {anchor : Anchor} {items : List Pem.Item} {added : List Anchor}
      (husable : Anchor.ofCertificate? der = some anchor) (hrest : Enlists items added) :
      Enlists (.whole .certificate der :: items) (anchor :: added)
  | unusable {der : Bytes} {items : List Pem.Item} {added : List Anchor}
      (hnone : Anchor.ofCertificate? der = none) (hrest : Enlists items added) :
      Enlists (.whole .certificate der :: items) added
  | other {kind : Pem.Kind} {body : Bytes} {items : List Pem.Item} {added : List Anchor}
      (hkind : kind ≠ .certificate) (hrest : Enlists items added) :
      Enlists (.whole kind body :: items) added
  | broken {items : List Pem.Item} {added : List Anchor} (hrest : Enlists items added) :
      Enlists (.broken :: items) added

theorem enlists_anchors (items : List Pem.Item) :
    Enlists items (anchors (items.filterMap Pem.Item.certificate?)) := by
  induction items with
  | nil => exact .nil
  | cons item items ih =>
      cases item with
      | broken => exact .broken ih
      | whole kind body =>
          by_cases hkind : kind = .certificate
          · subst hkind
            cases hanchor : Anchor.ofCertificate? body with
            | none => simpa [Pem.Item.certificate?, anchors, hanchor] using .unusable hanchor ih
            | some anchor =>
                simpa [Pem.Item.certificate?, anchors, hanchor] using .usable hanchor ih
          · have hpassed : Pem.Item.certificate? (.whole kind body) = none := by
              cases kind <;> trivial
            simpa [hpassed] using .other hkind ih

theorem Enlists.unique {items : List Pem.Item} {added others : List Anchor} (h : Enlists items added)
    (hothers : Enlists items others) : added = others := by
  induction h generalizing others with
  | nil =>
      cases hothers
      rfl
  | usable husable _ ih =>
      cases hothers with
      | usable hanchor hrest => rw [Option.some.inj (husable.symm.trans hanchor), ih hrest]
      | unusable hnone => simp [husable] at hnone
      | other hkind => exact absurd rfl hkind
  | unusable hnone _ ih =>
      cases hothers with
      | usable husable => simp [husable] at hnone
      | unusable _ hrest => exact ih hrest
      | other hkind => exact absurd rfl hkind
  | other hkind _ ih =>
      cases hothers with
      | usable => exact absurd rfl hkind
      | unusable => exact absurd rfl hkind
      | other _ hrest => exact ih hrest
  | broken _ ih =>
      cases hothers with
      | broken hrest => exact ih hrest

theorem enlists_items_iff {text : Bytes} {added : List Anchor} :
    Enlists (Pem.items text) added ↔ added = anchors (Pem.certificates text) := by
  have hanchors := enlists_anchors (Pem.items text)
  rw [← Pem.certificates_eq] at hanchors
  constructor
  · intro h
    exact h.unique hanchors
  · rintro rfl
    exact hanchors

/-! ## What comes of a file -/

section

variable {system : List Anchor} {disk : Files.Disk} {path : String}

theorem Useless.cases {fault : StaticPair.Error} (h : Useless disk path fault) :
    fault = .noCertificates path ∨ ∃ cause, fault = .read path cause := by
  cases h with
  | unreadable => exact .inr ⟨_, rfl⟩
  | noAnchor => exact .inl rfl

theorem rootsWith_eq_read_iff {cause : Files.FileError} :
    rootsWith system disk path = .error (.read path cause) ↔ disk.read path = .error cause := by
  rw [rootsWith_eq_error_iff]
  constructor
  · rintro (hread | _)
    exact hread
  · exact .unreadable

theorem rootsWith_eq_noCertificates_iff :
    rootsWith system disk path = .error (.noCertificates path) ↔
      ∃ text, disk.read path = .ok text ∧
        ∀ certificate ∈ Pem.certificates text, Anchor.ofCertificate? certificate = none := by
  rw [rootsWith_eq_error_iff]
  constructor
  · rintro (_ | ⟨hread, hnone⟩)
    exact ⟨_, hread, hnone⟩
  · rintro ⟨text, hread, hnone⟩
    exact .noAnchor hread hnone

theorem rootsWith_eq_ok_iff_enlists {roots : List Anchor} :
    rootsWith system disk path = .ok roots ↔
      ∃ text added, disk.read path = .ok text ∧ Enlists (Pem.items text) added ∧ added ≠ [] ∧
        roots = system ++ added := by
  simp only [rootsWith_eq_ok_iff, enlists_items_iff]
  constructor
  · rintro ⟨text, hread, hne, hroots⟩
    exact ⟨text, _, hread, rfl, hne, hroots⟩
  · rintro ⟨text, added, hread, rfl, hne, hroots⟩
    exact ⟨text, hread, hne, hroots⟩

theorem rootsWith_of_blocks {text : Bytes} {blocks : List Pem.Block} {added : List Anchor}
    (hread : disk.read path = .ok text) (hblocks : Pem.lines text = blocks.flatMap Pem.Block.lines)
    (hadded : Enlists (blocks.filterMap Pem.Block.item?) added) :
    rootsWith system disk path =
      if added = [] then .error (.noCertificates path) else .ok (system ++ added) := by
  rw [← Pem.items_of_blocks hblocks, enlists_items_iff] at hadded
  rw [rootsWith, hread, hadded]

end

end Trust

namespace Startup

variable {system : List Anchor} {disk : Files.Disk} {config : Acme.Config}

/-! ## What the settings carry -/

inductive Provides (system : List Anchor) (disk : Files.Disk) (config : Acme.Config) :
    Except SetupError (Acme.Settings (List Anchor)) → Prop where
  | default {settings : Acme.Settings (List Anchor)} (hpath : config.caRootPath = none)
      (htrusted : settings.trustedRoots = none) : Provides system disk config (.ok settings)
  | useless {path : String} {fault : StaticPair.Error} (hpath : config.caRootPath = some path)
      (hroots : Trust.rootsWith system disk path = .error fault) :
      Provides system disk config (.error (.caRoot fault))
  | extended {path : String} {roots : List Anchor} {settings : Acme.Settings (List Anchor)}
      (hpath : config.caRootPath = some path)
      (hroots : Trust.rootsWith system disk path = .ok roots)
      (htrusted : settings.trustedRoots = some roots) : Provides system disk config (.ok settings)

theorem settingsFor_provides (system : List Anchor) (disk : Files.Disk) (config : Acme.Config) :
    Provides system disk config (settingsFor system disk config) := by
  unfold settingsFor
  cases hpath : config.caRootPath with
  | none => exact .default hpath rfl
  | some path =>
      dsimp only
      cases hroots : Trust.rootsWith system disk path with
      | error fault => exact .useless hpath hroots
      | ok roots => exact .extended hpath hroots rfl

theorem settingsFor_eq_error_iff {cause : SetupError} :
    settingsFor system disk config = .error cause ↔
      ∃ path fault, config.caRootPath = some path ∧
        Trust.rootsWith system disk path = .error fault ∧ cause = .caRoot fault := by
  have hprovides := settingsFor_provides system disk config
  constructor
  · intro h
    rw [h] at hprovides
    cases hprovides with
    | useless hpath hroots => exact ⟨_, _, hpath, hroots, rfl⟩
  · rintro ⟨path, fault, hpath, hroots, rfl⟩
    generalize settingsFor system disk config = result at hprovides ⊢
    cases hprovides with
    | default hnone => simp [hpath] at hnone
    | useless hother hfault =>
        obtain rfl := Option.some.inj (hother.symm.trans hpath)
        rw [Except.error.inj (hfault.symm.trans hroots)]
    | extended hother hok =>
        obtain rfl := Option.some.inj (hother.symm.trans hpath)
        cases hok.symm.trans hroots

/-- There are roots in the settings exactly when a file of roots is named, those that come of it. -/
structure Carries (system : List Anchor) (disk : Files.Disk) (config : Acme.Config)
    (settings : Acme.Settings (List Anchor)) : Prop where
  eq_none_iff : settings.trustedRoots = none ↔ config.caRootPath = none
  eq_some_iff (roots : List Anchor) : settings.trustedRoots = some roots ↔
    ∃ path, config.caRootPath = some path ∧ Trust.rootsWith system disk path = .ok roots

theorem carries_of_settingsFor {settings : Acme.Settings (List Anchor)}
    (h : settingsFor system disk config = .ok settings) :
    Carries system disk config settings := by
  have hprovides := settingsFor_provides system disk config
  rw [h] at hprovides
  cases hprovides with
  | default hpath htrusted => exact ⟨by simp [hpath, htrusted], by simp [hpath, htrusted]⟩
  | extended hpath hroots htrusted =>
      exact ⟨by simp [hpath, htrusted], by simp [hpath, htrusted, hroots]⟩

section

variable {client : Acme.Client} (h : Carries system disk config client.settings)
  (now bundled : List Anchor)

include h

theorem Carries.exchangeRoots_default (hpath : config.caRootPath = none) :
    client.exchangeRoots now bundled = now ++ bundled := by
  rw [Acme.Client.exchangeRoots, h.eq_none_iff.mpr hpath]
  rfl

theorem Carries.exchangeRoots_extended {path : String} (hpath : config.caRootPath = some path) :
    Trust.rootsWith system disk path = .ok (client.exchangeRoots now bundled) := by
  rw [Acme.Client.exchangeRoots]
  cases htrusted : client.settings.trustedRoots with
  | none => simp [h.eq_none_iff.mp htrusted] at hpath
  | some roots =>
      obtain ⟨other, hother, hroots⟩ := (h.eq_some_iff roots).mp htrusted
      obtain rfl := Option.some.inj (hother.symm.trans hpath)
      exact hroots

end

/-- A file of roots that is of use is added to the roots of the system, and to nothing else; one that
is of no use ends the start and does not lead back to the roots that are trusted without a file.  It
is of no use when it is not found, when it is a directory, or by what it holds; permissions to read
it are not looked at. -/
theorem trusted_roots (system : List Anchor) (disk : Files.Disk) :
    (∀ path,
      (∀ cause, Trust.rootsWith system disk path = .error (.read path cause) ↔
        disk.read path = .error cause) ∧
      (Trust.rootsWith system disk path = .error (.noCertificates path) ↔
        ∃ text, disk.read path = .ok text ∧
          ∀ certificate ∈ Pem.certificates text, Anchor.ofCertificate? certificate = none) ∧
      (∀ fault, Trust.rootsWith system disk path = .error fault →
        fault = .noCertificates path ∨ ∃ cause, fault = .read path cause) ∧
      (∀ roots, Trust.rootsWith system disk path = .ok roots ↔
        ∃ text added, disk.read path = .ok text ∧ Trust.Enlists (Pem.items text) added ∧
          added ≠ [] ∧ roots = system ++ added) ∧
      ∀ (text : Bytes) (blocks : List Pem.Block) (added : List Anchor),
        disk.read path = .ok text → Pem.lines text = blocks.flatMap Pem.Block.lines →
        Trust.Enlists (blocks.filterMap Pem.Block.item?) added →
        Trust.rootsWith system disk path =
          if added = [] then .error (.noCertificates path) else .ok (system ++ added)) ∧
    ∀ config,
      (∀ cause, settingsFor system disk config = .error cause ↔
        ∃ path fault, config.caRootPath = some path ∧
          Trust.rootsWith system disk path = .error fault ∧ cause = .caRoot fault) ∧
      ∀ settings, settingsFor system disk config = .ok settings →
        Carries system disk config settings ∧
        ∀ client : Acme.Client, client.settings = settings → ∀ now bundled,
          (config.caRootPath = none → client.exchangeRoots now bundled = now ++ bundled) ∧
          ∀ path, config.caRootPath = some path →
            Trust.rootsWith system disk path = .ok (client.exchangeRoots now bundled) := by
  constructor
  · intro path
    refine ⟨fun _ => Trust.rootsWith_eq_read_iff, Trust.rootsWith_eq_noCertificates_iff, ?_,
      fun _ => Trust.rootsWith_eq_ok_iff_enlists, ?_⟩
    · intro fault hfault
      exact (Trust.rootsWith_eq_error_iff.mp hfault).cases
    · intro text blocks added hread hblocks hadded
      exact Trust.rootsWith_of_blocks hread hblocks hadded
  · intro config
    refine ⟨fun _ => settingsFor_eq_error_iff, fun settings hsettings => ?_⟩
    have hcarries := carries_of_settingsFor hsettings
    refine ⟨hcarries, ?_⟩
    rintro client rfl now bundled
    constructor
    · exact hcarries.exchangeRoots_default now bundled
    · intro path hpath
      exact hcarries.exchangeRoots_extended now bundled hpath

end Startup

end RegistryFront
