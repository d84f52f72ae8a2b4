import RegistryFront.Proofs.Files.Overwriting
import RegistryFront.Proofs.StaticPair.SelfSigned
import RegistryFront.StaticPair.Load

/-!
# What is there once a pair was made

Where the two paths exist, nothing is done.  Otherwise a new pair is written over whatever was there.
If nothing fails, both files are for their owner alone then, nothing else has changed but for the
directories that were missing, and the pair can be served and is left alone from then on.
-/

namespace RegistryFront.StaticPair

open Files (Action Disk Drive Node Place Stops)

variable {location : Location} {pair : PemPair} {path : String} {content : Bytes}
  {drive : Drive} {disk middle after : Disk} {place : Place}

/-! ## Files of one owner -/

structure Secures (path : String) (content : Bytes) (place : Place) (before after : Disk) : Prop
    extends Disk.Fills path place before after where
  rooted : after.Rooted
  node : after.node? place = some (.file 0o600 content)

theorem Secures.find (h : Secures path content place disk after) :
    after.find path = .ok (place, .file 0o600 content) :=
  (Disk.find_eq_ok_iff h.slash).mpr ⟨h.refills.locate_iff.mpr h.locate, h.node⟩

def Touched (index done : Nat) (cut : Bool) : Prop := index < done ∨ index = done ∧ cut = true

theorem Touched.le {index done : Nat} {cut : Bool} (h : Touched index done cut) : index ≤ done := by
  rcases h with hlt | ⟨heq, -⟩ <;> omega

theorem Touched.add {index done : Nat} {cut : Bool} (h : Touched index done cut) (more : Nat) :
    Touched (index + more) (done + more) cut :=
  h.imp (by omega) fun ⟨heq, hcut⟩ => ⟨by omega, hcut⟩

inductive Wrote (path : String) (content : Bytes) (disk : Disk) (rest : List Action) :
    Nat → Bool → Disk → Prop where
  | nothing : Wrote path content disk rest 0 false disk
  | partly {place : Place} {done : Nat} {cut : Bool} {after : Disk} (hdone : done < 2)
      (hbegun : Touched 0 done cut) (hfills : Disk.Fills path place disk after) :
      Wrote path content disk rest done cut after
  | whole {place : Place} {done : Nat} {cut : Bool} {middle after : Disk}
      (hsecures : Secures path content place disk middle) (hrest : Stops middle rest done cut after) :
      Wrote path content disk rest (done + 2) cut after

theorem wrote_of_stops {rest : List Action} {done : Nat} {cut : Bool} (hrooted : disk.Rooted)
    (h : Stops disk (privateFileActions path content ++ rest) done cut after) :
    Wrote path content disk rest done cut after := by
  change Stops disk (.write path 0o600 content :: .setMode path 0o600 :: rest) done cut after at h
  cases h with
  | here => exact .nothing
  | failed h =>
      obtain rfl := Files.error_of_keeping h
      exact .nothing
  | emptied h =>
      obtain ⟨place, -, hfills, -⟩ := hrooted.fills_write h
      exact .partly (by decide) (.inr ⟨rfl, rfl⟩) hfills
  | later h hrest =>
      have hwrite := Files.ok_of_keeping h
      obtain ⟨place, kept, hfills, hnode⟩ := hrooted.fills_write hwrite
      have hwritten := (hrooted.extends_write hwrite).rooted
      cases hrest with
      | here => exact .partly (by decide) (.inl (by decide)) hfills
      | failed h =>
          obtain rfl := Files.error_of_keeping h
          exact .partly (by decide) (.inl (by decide)) hfills
      | later h hrest =>
          have hset := Files.ok_of_keeping h
          obtain ⟨hmoded, hnode⟩ := hfills.setMode hnode hset
          exact .whole ⟨hmoded, (hwritten.extends_setMode hset).rooted, hnode⟩ hrest

/-! ## Pairs -/

def pairActions (location : Location) (pair : PemPair) : List Action :=
  privateFileActions location.certificate pair.certificate ++
    privateFileActions location.key pair.key

inductive WrotePair (location : Location) (pair : PemPair) (disk : Disk) :
    Nat → Bool → Disk → Prop where
  | nothing : WrotePair location pair disk 0 false disk
  | certificate {place : Place} {done : Nat} {cut : Bool} {after : Disk}
      (hbegun : Touched 0 done cut) (hkey : ¬ Touched 2 done cut)
      (hfills : Disk.Fills location.certificate place disk after) :
      WrotePair location pair disk done cut after
  | key {place keyPlace : Place} {done : Nat} {cut : Bool} {middle after : Disk}
      (hbegun : Touched 2 done cut) (hdone : done < 4)
      (hcertificate : Secures location.certificate pair.certificate place disk middle)
      (hkey : Disk.Fills location.key keyPlace middle after) :
      WrotePair location pair disk done cut after
  | whole {place keyPlace : Place} {middle after : Disk}
      (hcertificate : Secures location.certificate pair.certificate place disk middle)
      (hkey : Secures location.key pair.key keyPlace middle after) :
      WrotePair location pair disk 4 false after

theorem wrotePair_of_stops {done : Nat} {cut : Bool} (hrooted : disk.Rooted)
    (h : Stops disk (pairActions location pair) done cut after) :
    WrotePair location pair disk done cut after := by
  cases wrote_of_stops hrooted h with
  | nothing => exact .nothing
  | partly hdone hbegun hfills =>
      exact .certificate hbegun (fun hkey => absurd hkey.le (by omega)) hfills
  | whole hcertificate hrest =>
      rw [← List.append_nil (privateFileActions _ _)] at hrest
      cases wrote_of_stops hcertificate.rooted hrest with
      | nothing =>
          exact .certificate (.inl (by decide)) (by simp [Touched]) hcertificate.toFills
      | partly hdone hbegun hfills =>
          exact .key (hbegun.add 2) (by omega) hcertificate hfills
      | whole hkey hend =>
          cases hend with
          | here => exact .whole hcertificate hkey

theorem writePair_eq (location : Location) (pair : PemPair) (drive : Drive) :
    (writePair location pair drive).2 = (drive.performAll (pairActions location pair)).2 ∧
      ((writePair location pair drive).1 = .ok () ↔
        (drive.performAll (pairActions location pair)).1 = .ok ()) := by
  simp only [writePair, writePrivateFile, pairActions, Drive.performAll_append]
  rcases drive.performAll (privateFileActions location.certificate pair.certificate) with
    ⟨_ | _, written⟩
  · simp [Except.mapError]
  · simp only [Except.mapError]
    cases (written.performAll (privateFileActions location.key pair.key)).1 <;> simp

/-! ## The directory -/

def Location.directories (location : Location) : List String :=
  ((directory? location).map Disk.withParents).getD []

def prepared (location : Location) (drive : Drive) : Disk := (makeDirectory location drive).2.disk

theorem prepared_eq (location : Location) (drive : Drive) :
    prepared location drive = drive.disk ∨ ∃ path mishap, directory? location = some path ∧
      prepared location drive =
        ((Action.makeDirectories path 0o750).applyStruck drive.disk mishap).2 := by
  unfold prepared makeDirectory
  cases directory? location with
  | none => exact .inl rfl
  | some path => exact .inr ⟨path, _, rfl, rfl⟩

theorem rooted_prepared (h : drive.disk.Rooted) (location : Location) :
    (prepared location drive).Rooted := by
  rcases prepared_eq location drive with heq | ⟨path, mishap, -, heq⟩ <;> rw [heq]
  · exact h
  · exact (h.extends_applyStruck _ mishap).rooted

theorem adds_prepared (location : Location) (drive : Drive) :
    Disk.Adds 0o750 location.directories drive.disk (prepared location drive) := by
  rcases prepared_eq location drive with heq | ⟨path, mishap, hpath, heq⟩ <;> rw [heq]
  · exact Disk.adds_refl _ _ _
  · have hdirectories : location.directories = Disk.withParents path := by
      rw [Location.directories, hpath]
      rfl
    rw [hdirectories]
    -- mishaps leave the disk alone here
    rcases mishap with _ | _ | _
    · exact Disk.adds_makeDirectoriesOf _ _ _
    · exact Disk.adds_refl _ _ _
    · exact Disk.adds_refl _ _ _

/-! ## The whole -/

inductive Renews (location : Location) (now : Time.Instant) (entropy : Keys.Entropy) (disk : Disk) :
    Except Error Outcome × Drive → Prop where
  | unmade {cause : Error} {after : Drive} (hdisk : after.disk = disk) :
      Renews location now entropy disk (.error cause, after)
  | stopped {cause : Error} {pair : PemPair} {done : Nat} {cut : Bool} {after : Drive}
      (hpair : SelfSigned.generate now.unixSeconds entropy = .ok pair)
      (hstops : Stops disk (pairActions location pair) done cut after.disk) (hdone : done < 4) :
      Renews location now entropy disk (.error cause, after)
  | generated {pair : PemPair} {after : Drive}
      (hpair : SelfSigned.generate now.unixSeconds entropy = .ok pair)
      (hstops : Stops disk (pairActions location pair) 4 false after.disk) :
      Renews location now entropy disk (.ok .generated, after)

theorem renews (location : Location) (now : Time.Instant) (entropy : Keys.Entropy) (drive : Drive) :
    Renews location now entropy (prepared location drive) (renew location now entropy drive) := by
  unfold renew prepared
  rcases makeDirectory location drive with ⟨_ | _, before⟩
  · exact .unmade rfl
  · dsimp only
    unfold generate
    cases hpair : SelfSigned.generate now.unixSeconds entropy with
    | error => exact .unmade rfl
    | ok pair =>
        obtain ⟨hdrive, hok⟩ := writePair_eq location pair before
        dsimp only
        cases hresult : (writePair location pair before).1 with
        | error cause =>
            rcases before.performAll_stops (pairActions location pair) with
              ⟨hdone, -⟩ | ⟨-, done, hdone, cut, hstops⟩
            · rw [hok.mpr hdone] at hresult
              cases hresult
            · rw [← hdrive] at hstops
              exact .stopped hpair hstops hdone
        | ok =>
            have hstops := Drive.stops_of_performAll (Prod.ext (hok.mp hresult) hdrive.symm)
            exact .generated hpair hstops

/-! ## Serving -/

theorem isPresent_of_find {mode keyMode : Nat} {certificate key : Bytes} {keyPlace : Place}
    (hcertificate : disk.find location.certificate = .ok (place, .file mode certificate))
    (hkey : disk.find location.key = .ok (keyPlace, .file keyMode key)) :
    isPresent location disk = true := by
  rw [isPresent, Disk.pathExists_of_find hcertificate, Disk.pathExists_of_find hkey]
  rfl

theorem load_of_find {mode keyMode : Nat} {keyPlace : Place} {certified : Tls.Certified}
    (hcertificate : disk.find location.certificate = .ok (place, .file mode pair.certificate))
    (hkey : disk.find location.key = .ok (keyPlace, .file keyMode pair.key))
    (hpair : Tls.Certified.ofMatchingPem pair.certificate pair.key = .ok certified) :
    load location disk = .ok ⟨.fixed certified, Tls.Protocol.regular⟩ := by
  have hexists := Disk.pathExists_of_find hkey
  have hchain : Pem.certificates pair.certificate ≠ [] := by
    intro hnil
    simp [Tls.Certified.ofMatchingPem, Tls.Certified.ofPem, Tls.Certified.make, hnil, bind,
      Except.bind] at hpair
  simp [load, readFile, Disk.read_of_find hcertificate, Disk.read_of_find hkey, hexists, hchain,
    hpair, Except.mapError, bind, Except.bind]

/-! ## What there is after -/

/-- The paths lead to different files, once everything is there that will lie on the way. -/
def Location.Apart (location : Location) (disk : Disk) : Prop :=
  ∀ place, disk.locate true location.certificate = .ok place →
    disk.locate true location.key ≠ .ok place

/-- The pair is where the paths lead, for its owner alone, and nothing else is different but for
directories that are new. -/
structure Puts (location : Location) (pair : PemPair) (place keyPlace : Place)
    (before after : Disk) : Prop where
  certificate : after.find location.certificate = .ok (place, .file 0o600 pair.certificate)
  key : after.find location.key = .ok (keyPlace, .file 0o600 pair.key)
  kept : ∀ other node, other ≠ place → other ≠ keyPlace → before.node? other = some node →
    after.node? other = some node
  new : ∀ other, other ≠ place → other ≠ keyPlace → before.node? other = none →
    after.node? other = none ∨ after.node? other = some (.directory 0o750) ∧
      ∃ path ∈ location.directories, after.locate false path = .ok other

theorem puts_of_secures {keyPlace : Place} (hapart : location.Apart (prepared location drive))
    (hcertificate : Secures location.certificate pair.certificate place
      (prepared location drive) middle)
    (hkey : Secures location.key pair.key keyPlace middle after) :
    Puts location pair place keyPlace drive.disk after := by
  have hadds := adds_prepared location drive
  have hne : place ≠ keyPlace := by
    rintro rfl
    exact hapart place hcertificate.locate (hcertificate.refills.locate_iff.mp hkey.locate)
  have hsame : ∀ other, other ≠ place → other ≠ keyPlace →
      after.node? other = (prepared location drive).node? other := fun other hother hother' =>
    (hkey.same other hother').trans (hcertificate.same other hother)
  refine ⟨?_, hkey.find, fun other node hother hother' hnode => ?_,
    fun other hother hother' hnone => ?_⟩
  · refine (Disk.find_eq_ok_iff hcertificate.slash).mpr ⟨?_, ?_⟩
    · exact hkey.refills.locate_iff.mpr (hcertificate.refills.locate_iff.mpr hcertificate.locate)
    · rw [hkey.same place hne, hcertificate.node]
  · rw [hsame other hother hother', hadds.kept other node hnode]
  · rw [hsame other hother hother']
    refine (hadds.new other hnone).imp_right fun ⟨hdirectory, path, hpath, hlocate⟩ =>
      ⟨hdirectory, path, hpath, ?_⟩
    exact hkey.refills.locate_iff.mpr (hcertificate.refills.locate_iff.mpr hlocate)

/-! ## When nothing goes wrong -/

theorem exists_secures (h : disk.Writable path place) (hrooted : disk.Rooted)
    (content : Bytes) :
    ∃ after, (Drive.ofDisk disk).performAll (privateFileActions path content) =
      (.ok (), .ofDisk after) ∧ Secures path content place disk after := by
  obtain ⟨written, hwrite⟩ := h.exists_write 0o600 content
  obtain ⟨found, kept, hfills, hnode⟩ := hrooted.fills_write hwrite
  obtain rfl : found = place := Except.ok.inj (hfills.locate.symm.trans h.locate)
  obtain ⟨after, hset⟩ := hfills.exists_setMode 0o600
  obtain ⟨hmoded, hnode⟩ := hfills.setMode hnode hset
  refine ⟨after, ?_, hmoded, ((hrooted.extends_write hwrite).rooted.extends_setMode hset).rooted,
    hnode⟩
  simp [privateFileActions, Drive.performAll, Drive.perform, Drive.ofDisk, Action.applyStruck,
    Action.apply, Files.keeping, hwrite, hset]

theorem exists_ensure_eq {made : Disk} {entropy : Keys.Entropy}
    (habsent : isPresent location disk = false)
    (hmake : makeDirectory location (.ofDisk disk) = (.ok (), .ofDisk made))
    (hrooted : made.Rooted) (hwritable : made.Writable location.certificate place)
    (hentropy : (Keys.Rsa.generate? SelfSigned.keyBits entropy).1.isSome = true)
    (now : Time.Instant) :
    ∃ (pair : PemPair) (written : Disk),
      Secures location.certificate pair.certificate place made written ∧
      ensure location now entropy (.ofDisk disk) =
        ((writePrivateFile location.key pair.key (.ofDisk written)).1.map fun _ => .generated,
          (writePrivateFile location.key pair.key (.ofDisk written)).2) := by
  obtain ⟨pair, hpair⟩ := SelfSigned.exists_generate hentropy now
  obtain ⟨written, hwritten, hsecures⟩ :=
    exists_secures hwritable hrooted pair.certificate
  refine ⟨pair, written, hsecures, ?_⟩
  have hwrite : writePrivateFile location.certificate pair.certificate (.ofDisk made) =
      (.ok (), .ofDisk written) := by
    rw [writePrivateFile, hwritten]
    rfl
  have hnot : ¬ isPresent location (Drive.ofDisk disk).disk = true := ne_true_of_eq_false habsent
  simp only [ensure, if_neg hnot, renew, hmake, generate, hpair, writePair, hwrite]

theorem exists_ensure_generated {made : Disk} {keyPlace : Place} {entropy : Keys.Entropy}
    (habsent : isPresent location disk = false)
    (hmake : makeDirectory location (.ofDisk disk) = (.ok (), .ofDisk made))
    (hrooted : made.Rooted) (hwritable : made.Writable location.certificate place)
    (hkey : made.Writable location.key keyPlace)
    (hentropy : (Keys.Rsa.generate? SelfSigned.keyBits entropy).1.isSome = true)
    (now : Time.Instant) :
    ∃ after, ensure location now entropy (.ofDisk disk) = (.ok .generated, .ofDisk after) := by
  obtain ⟨pair, written, hsecures, heq⟩ :=
    exists_ensure_eq habsent hmake hrooted hwritable hentropy now
  obtain ⟨after, hafter, -⟩ :=
    exists_secures (hsecures.refills.writable hkey) hsecures.rooted pair.key
  refine ⟨after, ?_⟩
  rw [heq, writePrivateFile, hafter]
  rfl

/-! ### Two paths in a directory of the working directory -/

def certs : Location := ⟨"certs/registry.crt", "certs/registry.key"⟩

theorem certs_parts :
    Files.Path.parts "certs" = ["certs"] ∧
    Files.Path.parts "certs/registry.crt" = ["certs", "registry.crt"] ∧
    Files.Path.parts "certs/registry.key" = ["certs", "registry.key"] ∧
    directory? certs = some "certs" ∧ Disk.withParents "certs" = ["certs"] := by
  decide

theorem certs_sizes :
    (∀ path ∈ ["certs", "certs/registry.crt", "certs/registry.key"],
      Files.Path.isAbsolute path = false ∧ Files.Path.endsInSlash path = false ∧
        Text.Utf8.size path ≤ Disk.maxPath) ∧
    ∀ name ∈ ["certs", "registry.crt", "registry.key"], Text.Utf8.size name ≤ Disk.maxName := by
  decide

def withCerts (mode : Nat) (rest : List (Place × Node)) : Disk where
  entries := (["work"], .directory 0o755) :: (["work", "certs"], .directory mode) :: rest
  base := ["work"]

theorem leads_withCerts (mode : Nat) {rest : List (Place × Node)} {name : String}
    (hname : Disk.IsName name)
    (hlink : ∀ target, (withCerts mode rest).node? ["work", "certs", name] ≠ some (.link target)) :
    (withCerts mode rest).Leads true Disk.maxLinks ["work"] ["certs", name]
      ["work", "certs", name] := by
  have hcerts : (withCerts mode rest).node? ["work", "certs"] = some (.directory mode) := by
    simp [withCerts, Disk.node?, List.lookup_cons]
  refine .directory ⟨by decide, by decide, by decide⟩ hcerts ?_
  cases hnode : (withCerts mode rest).node? ["work", "certs", name] with
  | none => exact .missing hname hnode
  | some node =>
      cases node with
      | file => exact .file hname hnode
      | directory => exact .directory hname hnode .arrived
      | link target => exact absurd hnode (hlink target)

theorem locate_withCerts (mode : Nat) {rest : List (Place × Node)} {path name : String}
    (hpath : path = certs.certificate ∧ name = "registry.crt" ∨
      path = certs.key ∧ name = "registry.key")
    (hlink : ∀ target, (withCerts mode rest).node? ["work", "certs", name] ≠ some (.link target)) :
    (withCerts mode rest).locate true path = .ok ["work", "certs", name] := by
  obtain ⟨-, hcertificate, hkey, -⟩ := certs_parts
  refine Disk.locate_eq_ok_iff.mpr ?_
  rcases hpath with ⟨rfl, rfl⟩ | ⟨rfl, rfl⟩
  · refine ⟨⟨by decide, by decide, by decide⟩, ?_⟩
    rw [certs, hcertificate]
    exact leads_withCerts mode ⟨by decide, by decide, by decide⟩ hlink
  · refine ⟨⟨by decide, by decide, by decide⟩, ?_⟩
    rw [certs, hkey]
    exact leads_withCerts mode ⟨by decide, by decide, by decide⟩ hlink

theorem writable_withCerts (mode : Nat) {rest : List (Place × Node)} {path name : String}
    (hpath : path = certs.certificate ∧ name = "registry.crt" ∨
      path = certs.key ∧ name = "registry.key")
    (hnode : (withCerts mode rest).node? ["work", "certs", name] = none) :
    (withCerts mode rest).Writable path ["work", "certs", name] := by
  refine ⟨?_, locate_withCerts mode hpath (by simp [hnode]), by simp [Disk.DirectoryAt, hnode]⟩
  rcases hpath with ⟨rfl, -⟩ | ⟨rfl, -⟩ <;> decide

theorem makeDirectory_empty :
    makeDirectory certs (.ofDisk .empty) = (.ok (), .ofDisk (withCerts 0o750 [])) := by
  obtain ⟨hpaths, hnames⟩ := certs_sizes
  simp only [List.forall_mem_cons] at hpaths hnames
  simp [makeDirectory, Drive.perform, Drive.ofDisk, Action.applyStruck, Action.apply,
    Disk.makeDirectories, Disk.makeDirectoriesOf, Disk.makeDirectory, Disk.locate, Disk.walk,
    Disk.node?, Disk.put, List.lookup_cons, Nat.not_lt.mpr, bind, Except.bind, Except.mapError,
    Disk.empty, withCerts, certs_parts, hpaths, hnames]

theorem isPresent_empty : isPresent certs .empty = false := by
  obtain ⟨hpaths, hnames⟩ := certs_sizes
  simp only [List.forall_mem_cons] at hpaths hnames
  simp [isPresent, certs, Disk.pathExists, Disk.find, Disk.locate, Disk.walk, Disk.node?,
    List.lookup_cons, Nat.not_lt.mpr, bind, Except.bind, Except.isOk, Except.toBool, Disk.empty,
    certs_parts, hpaths, hnames]

/-- Two small numbers are drawn, from each of which a prime is found at once. -/
def quick : Keys.Entropy where
  streams _ :=
    let zeros : Bytes := List.replicate 141 0
    ((zeros ++ [4, 12] ++ zeros ++ [6, 160]).getD · 0)
  stream := 0
  drawn := 0

theorem isSome_quick : (Keys.Rsa.generate? SelfSigned.keyBits quick).1.isSome = true := by
  decide +kernel

/-! ## Making sure there is a pair -/

/-- For two paths that lead to different files: a pair that is there is left alone; one that is made
anew lies there then as `Puts` says, can be served with both protocols, and is left alone the next
time, whatever is to befall the drive.  What befalls it concerns changes: what is there is seen, and
can be read. -/
theorem ensure_provides (hrooted : drive.disk.Rooted)
    (hapart : location.Apart (prepared location drive)) (now : Time.Instant)
    (entropy : Keys.Entropy) :
    (drive.disk.pathExists location.certificate = true ∧
        drive.disk.pathExists location.key = true →
      ensure location now entropy drive = (.ok .alreadyPresent, drive)) ∧
    (¬ (drive.disk.pathExists location.certificate = true ∧
        drive.disk.pathExists location.key = true) →
      (∃ cause after, ensure location now entropy drive = (.error cause, after)) ∨
      ∃ pair after place keyPlace certified,
        ensure location now entropy drive = (.ok .generated, after) ∧
        SelfSigned.generate now.unixSeconds entropy = .ok pair ∧
        Puts location pair place keyPlace drive.disk after.disk ∧
        load location after.disk =
          .ok ⟨.fixed certified, [Tls.Protocol.named "h2", Tls.Protocol.named "http/1.1"]⟩ ∧
        ∀ again new mishaps, ensure location again new ⟨after.disk, mishaps⟩ =
          (.ok .alreadyPresent, ⟨after.disk, mishaps⟩)) := by
  have hpresent : isPresent location drive.disk = true ↔
      drive.disk.pathExists location.certificate = true ∧
        drive.disk.pathExists location.key = true := by
    rw [isPresent, Bool.and_eq_true]
  rw [← hpresent]
  refine ⟨fun h => by rw [ensure, if_pos h], fun h => ?_⟩
  rw [ensure, if_neg h]
  have hrenews := renews location now entropy drive
  generalize renew location now entropy drive = outcome at hrenews ⊢
  cases hrenews with
  | unmade => exact .inl ⟨_, _, rfl⟩
  | stopped => exact .inl ⟨_, _, rfl⟩
  | @generated pair after hpair hstops =>
      obtain ⟨certified, hcertified⟩ := SelfSigned.ofMatchingPem_generate hpair
      cases wrotePair_of_stops (rooted_prepared hrooted location) hstops with
      | certificate _ hkey => exact absurd (.inl (by decide)) hkey
      | key _ hdone => exact absurd hdone (by decide)
      | whole hcertificate hkey =>
          have hputs := puts_of_secures hapart hcertificate hkey
          refine .inr ⟨pair, after, _, _, certified, rfl, hpair, hputs,
            load_of_find hputs.certificate hputs.key hcertified, fun again new mishaps => ?_⟩
          rw [ensure, if_pos (isPresent_of_find hputs.certificate hputs.key)]

theorem ensure_provides_first :
    ((Drive.ofDisk .empty).disk.Rooted ∧ certs.Apart (prepared certs (.ofDisk .empty))) ∧
    ∃ pair after place keyPlace certified,
      ensure certs .epoch quick (.ofDisk .empty) = (.ok .generated, after) ∧
      SelfSigned.generate Time.Instant.epoch.unixSeconds quick = .ok pair ∧
      Puts certs pair place keyPlace .empty after.disk ∧
      load certs after.disk =
        .ok ⟨.fixed certified, [Tls.Protocol.named "h2", Tls.Protocol.named "http/1.1"]⟩ ∧
      ensure certs .epoch quick after = (.ok .alreadyPresent, after) := by
  have hrooted : (Drive.ofDisk .empty).disk.Rooted := Disk.rooted_of_single (.inr rfl)
  have hmade : prepared certs (.ofDisk .empty) = withCerts 0o750 [] := by
    rw [prepared, makeDirectory_empty]
    rfl
  have hwritable : (withCerts 0o750 []).Writable certs.certificate
      ["work", "certs", "registry.crt"] := writable_withCerts 0o750 (.inl ⟨rfl, rfl⟩) rfl
  have hkeyWritable : (withCerts 0o750 []).Writable certs.key ["work", "certs", "registry.key"] :=
    writable_withCerts 0o750 (.inr ⟨rfl, rfl⟩) rfl
  have hapart : certs.Apart (prepared certs (.ofDisk .empty)) := by
    intro place hplace hkey
    rw [hmade] at hplace hkey
    have hsame := (hwritable.locate.symm.trans hplace).trans (hkey.symm.trans hkeyWritable.locate)
    exact absurd (Except.ok.inj hsame) (by decide)
  refine ⟨⟨hrooted, hapart⟩, ?_⟩
  obtain ⟨final, hfinal⟩ := exists_ensure_generated isPresent_empty makeDirectory_empty
    (hmade ▸ rooted_prepared hrooted certs) hwritable hkeyWritable isSome_quick .epoch
  have habsent : ¬ isPresent certs (Drive.ofDisk .empty).disk = true := by
    simp [Drive.ofDisk, isPresent_empty]
  rw [isPresent, Bool.and_eq_true] at habsent
  rcases (ensure_provides hrooted hapart .epoch quick).2 habsent with
    ⟨cause, after, herror⟩ | ⟨pair, after, place, keyPlace, certified, hok, hpair, hputs, hload, hagain⟩
  · rw [hfinal] at herror
    cases herror
  · exact ⟨pair, after, place, keyPlace, certified, hok, hpair, hputs, hload,
      hagain .epoch quick after.mishaps⟩

end RegistryFront.StaticPair
