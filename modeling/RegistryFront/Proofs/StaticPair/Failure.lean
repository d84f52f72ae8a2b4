import RegistryFront.Proofs.StaticPair.Bootstrap

/-!
# What a failure leaves for the next start

Whether a pair is there is asked of the two paths alone.  One that was not finished is therefore taken
for a pair as soon as both paths exist, be it from before or because the writing came so far.
-/

namespace RegistryFront.StaticPair

open Files (Action Disk Drive Node Place Stops)

variable {location : Location} {pair : PemPair} {drive after : Drive} {disk made : Disk}
  {now : Time.Instant} {entropy : Keys.Entropy}

/-! ## What is taken for a pair -/

/-- The key would be written into the file of the certificate. -/
def Location.Coincide (location : Location) (disk : Disk) : Prop :=
  Files.Path.endsInSlash location.key = false ∧
    ∃ place, disk.locate true location.certificate = .ok place ∧
      disk.locate true location.key = .ok place

structure Mistaken (location : Location) (disk : Disk) (done : Nat) (cut : Bool) : Prop where
  certificate : disk.pathExists location.certificate = true ∨ Touched 0 done cut
  key : disk.pathExists location.key = true ∨ Touched 2 done cut ∨
    Touched 0 done cut ∧ location.Coincide disk

theorem WrotePair.isPresent_iff {done : Nat} {cut : Bool} {left : Disk}
    (h : WrotePair location pair disk done cut left) :
    isPresent location left = true ↔ Mistaken location disk done cut := by
  rw [isPresent, Bool.and_eq_true]
  cases h with
  | nothing =>
      have hnot (index : Nat) : ¬ Touched index 0 false := by simp [Touched]
      constructor
      · rintro ⟨hcertificate, hkey⟩
        exact ⟨.inl hcertificate, .inl hkey⟩
      · intro h
        refine ⟨h.certificate.resolve_right (hnot 0), h.key.resolve_right ?_⟩
        rintro (htouched | ⟨htouched, -⟩)
        · exact hnot 2 htouched
        · exact hnot 0 htouched
  | certificate hbegun hkey hfills =>
      constructor
      · rintro ⟨-, hexists⟩
        rcases hfills.pathExists_iff.mp hexists with hexists | ⟨hlocate, hslash⟩
        · exact ⟨.inr hbegun, .inl hexists⟩
        · exact ⟨.inr hbegun, .inr (.inr ⟨hbegun, hslash, _, hfills.locate, hlocate⟩)⟩
      · refine fun h => ⟨hfills.pathExists_self,
          hfills.pathExists_iff.mpr (h.key.imp_right fun h => ?_)⟩
        obtain ⟨hslash, place, hcertificate, hlocate⟩ := (h.resolve_left hkey).2
        obtain rfl := Except.ok.inj (hcertificate.symm.trans hfills.locate)
        exact ⟨hlocate, hslash⟩
  | key hbegun _ hcertificate hkey =>
      have hexists := hkey.pathExists_iff.mpr (.inl hcertificate.pathExists_self)
      exact ⟨fun _ => ⟨.inr (.inl (Nat.lt_of_lt_of_le (by decide) hbegun.le)), .inr (.inl hbegun)⟩,
        fun _ => ⟨hexists, hkey.pathExists_self⟩⟩
  | whole hcertificate hkey =>
      have hexists := hkey.pathExists_iff.mpr (.inl hcertificate.pathExists_self)
      exact ⟨fun _ => ⟨.inr (.inl (by decide)), .inr (.inl (.inl (by decide)))⟩,
        fun _ => ⟨hexists, hkey.pathExists_self⟩⟩

/-! ## A directory where the key is to be -/

theorem exists_ensure_error {place keyPlace : Place} (habsent : isPresent location disk = false)
    (hmake : makeDirectory location (.ofDisk disk) = (.ok (), .ofDisk made))
    (hrooted : made.Rooted) (hwritable : made.Writable location.certificate place)
    (hlocate : made.locate true location.key = .ok keyPlace)
    (hdirectory : made.DirectoryAt keyPlace)
    (hentropy : (Keys.Rsa.generate? SelfSigned.keyBits entropy).1.isSome = true)
    (now : Time.Instant) :
    ∃ left, ensure location now entropy (.ofDisk disk) =
      (.error (.write location.key (.os .isDirectory)), .ofDisk left) ∧
      ∀ again new, ensure location again new (.ofDisk left) =
        (.ok .alreadyPresent, .ofDisk left) := by
  obtain ⟨pair, written, hsecures, heq⟩ :=
    exists_ensure_eq habsent hmake hrooted hwritable hentropy now
  have hkeyPlace := hsecures.refills.grows.locate hlocate
  have hkeyDirectory := hsecures.refills.grows.directoryAt hdirectory
  have hwrite := Disk.write_of_directoryAt hkeyPlace hkeyDirectory 0o600 pair.key
  have hkey : writePrivateFile location.key pair.key (.ofDisk written) =
      (.error (.write location.key (.os .isDirectory)), .ofDisk written) := by
    simp [writePrivateFile, privateFileActions, Drive.performAll, Drive.perform, Drive.ofDisk,
      Action.applyStruck, Action.apply, Files.keeping, hwrite, Except.mapError]
  obtain ⟨mode, hnode⟩ := hkeyDirectory
  have hexists : written.pathExists location.key = true :=
    Disk.pathExists_iff.mpr ⟨keyPlace, _, hkeyPlace, hnode, by simp⟩
  have hpresent : isPresent location (Drive.ofDisk written).disk = true := by
    rw [isPresent, Bool.and_eq_true]
    exact ⟨hsecures.pathExists_self, hexists⟩
  refine ⟨written, ?_, fun again new => by rw [ensure, if_pos hpresent]⟩
  rw [heq, hkey]
  rfl

def blocked : Disk := withCerts 0o755 [(["work", "certs", "registry.key"], .directory 0o755)]

theorem rooted_blocked : blocked.Rooted := by
  have hmade : (Disk.empty.makeDirectories certs.key 0o755).2 = blocked := by
    obtain ⟨hpaths, hnames⟩ := certs_sizes
    have hparents : Disk.withParents certs.key = ["certs/registry.key", "certs"] := by decide
    simp only [List.forall_mem_cons] at hpaths hnames
    simp [Disk.makeDirectories, Disk.makeDirectoriesOf, Disk.makeDirectory, Disk.locate, Disk.walk,
      Disk.node?, Disk.put, List.lookup_cons, Nat.not_lt.mpr, bind, Except.bind, Disk.empty,
      blocked, withCerts, certs_parts, hparents, hpaths, hnames]
  have hempty : Disk.empty.Rooted := Disk.rooted_of_single (.inr rfl)
  rw [← hmade]
  exact (hempty.extends_makeDirectoriesOf 0o755 (Disk.withParents certs.key)).rooted

theorem makeDirectory_blocked : makeDirectory certs (.ofDisk blocked) = (.ok (), .ofDisk blocked) := by
  obtain ⟨hpaths, hnames⟩ := certs_sizes
  simp only [List.forall_mem_cons] at hpaths hnames
  simp [makeDirectory, Drive.perform, Drive.ofDisk, Action.applyStruck, Action.apply,
    Disk.makeDirectories, Disk.makeDirectoriesOf, Disk.makeDirectory, Disk.isDirectory, Disk.find,
    Disk.locate, Disk.walk, Disk.node?, List.lookup_cons, Nat.not_lt.mpr, bind, Except.bind,
    Except.mapError, Files.Errno.alreadyExists, Files.Errno.noEntry, blocked, withCerts,
    certs_parts, hpaths, hnames]

theorem exists_ensure_blocked (now : Time.Instant) :
    ∃ left, ensure certs now quick (.ofDisk blocked) =
      (.error (.write certs.key (.os .isDirectory)), .ofDisk left) ∧
      ∀ again new, ensure certs again new (.ofDisk left) = (.ok .alreadyPresent, .ofDisk left) := by
  have hnone : blocked.node? ["work", "certs", "registry.crt"] = none := by decide
  have hwritable : blocked.Writable certs.certificate ["work", "certs", "registry.crt"] :=
    writable_withCerts 0o755 (.inl ⟨rfl, rfl⟩) hnone
  have hlocate : blocked.locate true certs.key = .ok ["work", "certs", "registry.key"] :=
    locate_withCerts 0o755 (.inr ⟨rfl, rfl⟩) (by simp [withCerts, Disk.node?, List.lookup_cons])
  have habsent : isPresent certs blocked = false := by
    simp [isPresent, Disk.pathExists, Disk.find, hwritable.locate, hnone, bind, Except.bind,
      Except.isOk, Except.toBool]
  exact exists_ensure_error habsent makeDirectory_blocked rooted_blocked hwritable hlocate
    ⟨0o755, rfl⟩ isSome_quick now

/-! ## The next call -/

theorem renew_ne_alreadyPresent (location : Location) (now : Time.Instant)
    (entropy : Keys.Entropy) (drive : Drive) :
    (renew location now entropy drive).1 ≠ .ok .alreadyPresent := by
  have hrenews := renews location now entropy drive
  intro h
  generalize renew location now entropy drive = outcome at hrenews h
  cases hrenews <;> cases h

/-- Where a failure stopped the writing decides what the next call does, whenever it is made and
whatever befalls it: it takes what is left for a pair, or it makes one anew.  What
is there is always seen: to look at a path is not refused. -/
theorem ensure_after_failure (hrooted : drive.disk.Rooted) {cause : Error}
    (hfailed : ensure location now entropy drive = (.error cause, after)) :
    ∃ done < 4, ∃ cut pair,
      Stops (prepared location drive) (pairActions location pair) done cut after.disk ∧
      ∀ again new mishaps,
        ((ensure location again new ⟨after.disk, mishaps⟩).1 = .ok .alreadyPresent ↔
          Mistaken location (prepared location drive) done cut) ∧
        (¬ Mistaken location (prepared location drive) done cut →
          ensure location again new ⟨after.disk, mishaps⟩ =
            renew location again new ⟨after.disk, mishaps⟩) := by
  have habsent : ¬ isPresent location drive.disk = true := by
    intro hpresent
    rw [ensure, if_pos hpresent] at hfailed
    cases hfailed
  rw [ensure, if_neg habsent] at hfailed
  have hrenews := renews location now entropy drive
  rw [hfailed] at hrenews
  obtain ⟨done, hdone, cut, pair, hstops⟩ : ∃ done < 4, ∃ cut pair,
      Stops (prepared location drive) (pairActions location pair) done cut after.disk := by
    cases hrenews with
    | unmade hdisk =>
        rw [hdisk]
        exact ⟨0, by decide, false, ⟨[], []⟩, .here ..⟩
    | stopped _ hstops hdone => exact ⟨_, hdone, _, _, hstops⟩
  refine ⟨done, hdone, cut, pair, hstops, fun again new mishaps => ?_⟩
  have hiff := (wrotePair_of_stops (rooted_prepared hrooted location) hstops).isPresent_iff
  rw [← hiff, ensure]
  refine ⟨⟨fun h => ?_, fun h => by rw [if_pos h]⟩, fun h => if_neg h⟩
  by_contra hnot
  rw [if_neg hnot] at h
  exact renew_ne_alreadyPresent _ _ _ _ h

theorem ensure_after_blocked :
    (Drive.ofDisk blocked).disk.Rooted ∧
    ∃ after, ensure certs .epoch quick (.ofDisk blocked) =
        (.error (.write certs.key (.os .isDirectory)), after) ∧
      ∃ done < 4, ∃ cut pair,
        Stops (prepared certs (.ofDisk blocked)) (pairActions certs pair) done cut after.disk ∧
        Mistaken certs (prepared certs (.ofDisk blocked)) done cut ∧
        ensure certs .epoch quick after = (.ok .alreadyPresent, after) := by
  obtain ⟨left, hfailed, htaken⟩ := exists_ensure_blocked .epoch
  have hrooted : (Drive.ofDisk blocked).disk.Rooted := rooted_blocked
  obtain ⟨done, hdone, cut, pair, hstops, hnext⟩ := ensure_after_failure hrooted hfailed
  have hagain := htaken .epoch quick
  exact ⟨hrooted, _, hfailed, done, hdone, cut, pair, hstops,
    (hnext .epoch quick []).1.mp (congrArg Prod.fst hagain), hagain⟩

/-- The certificate without a key is taken for a pair. -/
theorem not_ensure_after_failure :
    ¬ ∀ (location : Location) (now again : Time.Instant) (entropy new : Keys.Entropy)
      (drive after : Drive) (cause : Error),
      drive.disk.Rooted → ensure location now entropy drive = (.error cause, after) →
      (ensure location again new after).1 ≠ .ok .alreadyPresent := by
  intro h
  obtain ⟨left, hfailed, htaken⟩ := exists_ensure_blocked .epoch
  exact h certs .epoch .epoch quick quick (.ofDisk blocked) _ _ rooted_blocked hfailed
    (congrArg Prod.fst (htaken .epoch quick))

end RegistryFront.StaticPair
