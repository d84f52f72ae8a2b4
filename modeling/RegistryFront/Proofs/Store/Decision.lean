import RegistryFront.Proofs.Store.Due

/-!
# When a certificate is due

What the store finds for a domain, and what it decides from that: the files come first, then the
domains, then the time.  Of all that can be the case one thing is.
-/

namespace RegistryFront.Store

open Files
open Time (Instant)

variable (store : Store) (disk : Disk) (domain : String)

/-! ## What is found -/

structure Stored (certificate : StoredCertificate) : Prop where
  chain : disk.readText (store.partPath domain .chain) = .ok certificate.chainPem
  key : disk.readText (store.partPath domain .key) = .ok certificate.keyPem
  record : ∃ text, disk.readText (store.partPath domain .record) = .ok text ∧
    Record.read text = .ok certificate.record

inductive Damaged : StoreError → Prop where
  | chain {cause : FileError}
      (hchain : disk.readText (store.partPath domain .chain) = .error cause) :
      Damaged (.file cause)
  | key {chainPem : String} {cause : FileError}
      (hchain : disk.readText (store.partPath domain .chain) = .ok chainPem)
      (hkey : disk.readText (store.partPath domain .key) = .error cause) :
      Damaged (.file cause)
  | record {chainPem keyPem : String} {cause : FileError}
      (hchain : disk.readText (store.partPath domain .chain) = .ok chainPem)
      (hkey : disk.readText (store.partPath domain .key) = .ok keyPem)
      (hrecord : disk.readText (store.partPath domain .record) = .error cause) :
      Damaged (.file cause)
  | format {chainPem keyPem text : String} {cause : Json.Error}
      (hchain : disk.readText (store.partPath domain .chain) = .ok chainPem)
      (hkey : disk.readText (store.partPath domain .key) = .ok keyPem)
      (hrecord : disk.readText (store.partPath domain .record) = .ok text)
      (hread : Record.read text = .error cause) :
      Damaged (.record cause)

inductive Finds : Except StoreError (Option StoredCertificate) → Prop where
  | nothing {part : Part} (hmissing : disk.pathExists (store.partPath domain part) = false) :
      Finds (.ok none)
  | damaged {cause : StoreError}
      (hthere : ∀ part, disk.pathExists (store.partPath domain part) = true)
      (hdamaged : Damaged store disk domain cause) : Finds (.error cause)
  | stored {certificate : StoredCertificate} (hstored : Stored store disk domain certificate) :
      Finds (.ok (some certificate))

section

variable {store disk domain}

theorem load_of_missing {part : Part}
    (hmissing : disk.pathExists (store.partPath domain part) = false) :
    store.load disk domain = .ok none := by
  have hnot : ¬ [store.chainPath domain, store.keyPath domain, store.recordPath domain].all
      disk.pathExists = true := by
    rw [List.all_eq_true]
    intro hall
    have hthere : disk.pathExists (store.partPath domain part) = true := by
      cases part <;> exact hall _ (by simp [partPath, chainPath, keyPath, recordPath, Part.name])
    rw [hmissing] at hthere
    cases hthere
  unfold load
  rw [if_neg hnot]

theorem load_of_there (hthere : ∀ part, disk.pathExists (store.partPath domain part) = true) :
    store.load disk domain =
      match disk.readText (store.partPath domain .chain),
        disk.readText (store.partPath domain .key),
        disk.readText (store.partPath domain .record) with
      | .ok chainPem, .ok keyPem, .ok text =>
          match Record.read text with
          | .ok record => .ok (some ⟨chainPem, keyPem, record⟩)
          | .error cause => .error (.record cause)
      | .error cause, _, _ => .error (.file cause)
      | _, .error cause, _ => .error (.file cause)
      | _, _, .error cause => .error (.file cause) := by
  have hall : [store.chainPath domain, store.keyPath domain, store.recordPath domain].all
      disk.pathExists = true := by
    simpa using ⟨hthere .chain, hthere .key, hthere .record⟩
  unfold load
  rw [if_pos hall]
  rfl

theorem Stored.there {certificate : StoredCertificate} (h : Stored store disk domain certificate)
    (part : Part) : disk.pathExists (store.partPath domain part) = true := by
  obtain ⟨text, htext, -⟩ := h.record
  cases part with
  | chain => exact Disk.pathExists_of_readText h.chain
  | key => exact Disk.pathExists_of_readText h.key
  | record => exact Disk.pathExists_of_readText htext

end

theorem finds_load : Finds store disk domain (store.load disk domain) := by
  by_cases hthere : ∀ part, disk.pathExists (store.partPath domain part) = true
  · rw [load_of_there hthere]
    cases hchain : disk.readText (store.partPath domain .chain) with
    | error => exact .damaged hthere (.chain hchain)
    | ok chainPem =>
        cases hkey : disk.readText (store.partPath domain .key) with
        | error => exact .damaged hthere (.key hchain hkey)
        | ok keyPem =>
            cases hrecord : disk.readText (store.partPath domain .record) with
            | error => exact .damaged hthere (.record hchain hkey hrecord)
            | ok text =>
                dsimp only
                cases hread : Record.read text with
                | error => exact .damaged hthere (.format hchain hkey hrecord hread)
                | ok record =>
                    have hstored : Stored store disk domain ⟨chainPem, keyPem, record⟩ :=
                      ⟨hchain, hkey, text, hrecord, hread⟩
                    exact .stored hstored
  · obtain ⟨part, hmissing⟩ := not_forall.mp hthere
    have hmissing : disk.pathExists (store.partPath domain part) = false := by simpa using hmissing
    rw [load_of_missing hmissing]
    exact .nothing hmissing

/-- There is one way in which looking for a certificate can end. -/
theorem load_eq_iff {result : Except StoreError (Option StoredCertificate)} :
    store.load disk domain = result ↔ Finds store disk domain result := by
  constructor
  · rintro rfl
    exact finds_load store disk domain
  · intro h
    cases h with
    | nothing hmissing => exact load_of_missing hmissing
    | damaged hthere hdamaged =>
        rw [load_of_there hthere]
        cases hdamaged with
        | chain hchain => rw [hchain]
        | key hchain hkey => rw [hchain, hkey]
        | record hchain hkey hrecord => rw [hchain, hkey, hrecord]
        | format hchain hkey hrecord hread => simp only [hchain, hkey, hrecord, hread]
    | stored hstored =>
        obtain ⟨text, htext, hread⟩ := hstored.record
        rw [load_of_there hstored.there]
        simp only [hstored.chain, hstored.key, htext, hread]

theorem load_eq_some_iff {certificate : StoredCertificate} :
    store.load disk domain = .ok (some certificate) ↔ Stored store disk domain certificate := by
  rw [load_eq_iff]
  constructor
  · intro h
    cases h with
    | stored hstored => exact hstored
  · exact .stored

/-! ## What is decided -/

/-- Whether the certificate of a domain is due, and why that is or cannot be told. -/
inductive Decision (now : Instant) (domains : List String) (days : Nat) :
    Except DueError Bool → Prop where
  | nothing {part : Part} (hmissing : disk.pathExists (store.partPath domain part) = false) :
      Decision now domains days (.ok true)
  | damaged {cause : StoreError}
      (hthere : ∀ part, disk.pathExists (store.partPath domain part) = true)
      (hdamaged : Damaged store disk domain cause) : Decision now domains days (.error (.store cause))
  | otherDomains {certificate : StoredCertificate}
      (hstored : Stored store disk domain certificate)
      (hdomains : certificate.record.domains ≠ domains) : Decision now domains days (.ok true)
  | pastCalendar {certificate : StoredCertificate}
      (hstored : Stored store disk domain certificate)
      (hdomains : certificate.record.domains = domains)
      (hpast : Instant.lastSecond < now.unixSeconds + 86400 * days) :
      Decision now domains days (.error .pastCalendar)
  | runsOut {certificate : StoredCertificate} (hstored : Stored store disk domain certificate)
      (hdomains : certificate.record.domains = domains)
      (hrange : now.unixSeconds + 86400 * days ≤ Instant.lastSecond)
      (hexpires : certificate.record.expires.IsBy (now.unixSeconds + 86400 * days) now.nano) :
      Decision now domains days (.ok true)
  | lasts {certificate : StoredCertificate} (hstored : Stored store disk domain certificate)
      (hdomains : certificate.record.domains = domains)
      (hrange : now.unixSeconds + 86400 * days ≤ Instant.lastSecond)
      (hexpires : ¬ certificate.record.expires.IsBy (now.unixSeconds + 86400 * days) now.nano) :
      Decision now domains days (.ok false)

section

variable {store disk domain} {now : Instant} {domains : List String} {days : Nat}

theorem isDue_of_stored {certificate : StoredCertificate} (hnow : now.Regular)
    (hstored : Stored store disk domain certificate)
    (hdomains : certificate.record.domains = domains) :
    store.isDue disk now domain domains days =
      if Instant.lastSecond < now.unixSeconds + 86400 * days then .error .pastCalendar
      else .ok (decide
        (certificate.record.expires.IsBy (now.unixSeconds + 86400 * days) now.nano)) := by
  have hload := (load_eq_some_iff store disk domain).mpr hstored
  unfold isDue
  rw [hload]
  simp only [ne_eq, hdomains, not_true_eq_false, if_false]
  cases hlimit : now.addDays? days with
  | none => rw [if_pos ((now.addDays?_eq_none_iff days).mp hlimit)]
  | some limit =>
      have hrange : ¬ Instant.lastSecond < now.unixSeconds + 86400 * days := by
        rw [← now.addDays?_eq_none_iff, hlimit]
        simp
      rw [if_neg hrange, ← Instant.unixSeconds_of_addDays? hlimit,
        ← (Instant.addDays?_eq_some hlimit).2.2 hnow, Except.ok.injEq, Bool.eq_iff_iff,
        Instant.notAfter_iff_isBy, decide_eq_true_eq]

theorem isDue_of_damaged {cause : StoreError} (hload : store.load disk domain = .error cause) :
    store.isDue disk now domain domains days = .error (.store cause) := by
  unfold isDue
  rw [hload]

theorem isDue_of_otherDomains {certificate : StoredCertificate}
    (hload : store.load disk domain = .ok (some certificate))
    (hdomains : certificate.record.domains ≠ domains) :
    store.isDue disk now domain domains days = .ok true := by
  unfold isDue
  rw [hload]
  exact if_pos hdomains

theorem decision_isDue (hnow : now.Regular) :
    Decision store disk domain now domains days (store.isDue disk now domain domains days) := by
  have hfinds := finds_load store disk domain
  generalize hload : store.load disk domain = found at hfinds
  cases hfinds with
  | nothing hmissing =>
      rw [isDue_of_missing hload]
      exact .nothing hmissing
  | damaged hthere hdamaged =>
      rw [isDue_of_damaged hload]
      exact .damaged hthere hdamaged
  | @stored certificate hstored =>
      by_cases hdomains : certificate.record.domains = domains
      · rw [isDue_of_stored hnow hstored hdomains]
        split
        · next hpast => exact .pastCalendar hstored hdomains hpast
        · next hrange =>
            rw [Int.not_lt] at hrange
            by_cases hexpires : certificate.record.expires.IsBy
              (now.unixSeconds + 86400 * days) now.nano
            · rw [decide_eq_true hexpires]
              exact .runsOut hstored hdomains hrange hexpires
            · rw [decide_eq_false hexpires]
              exact .lasts hstored hdomains hrange hexpires
      · rw [isDue_of_otherDomains hload hdomains]
        exact .otherDomains hstored hdomains

/-- There is one way in which the decision can come out. -/
theorem isDue_eq_iff (hnow : now.Regular) {result : Except DueError Bool} :
    store.isDue disk now domain domains days = result ↔
      Decision store disk domain now domains days result := by
  constructor
  · rintro rfl
    exact decision_isDue hnow
  · intro h
    cases h with
    | nothing hmissing => exact isDue_of_missing (load_of_missing hmissing)
    | damaged hthere hdamaged =>
        exact isDue_of_damaged ((load_eq_iff ..).mpr (.damaged hthere hdamaged))
    | otherDomains hstored hdomains =>
        exact isDue_of_otherDomains ((load_eq_some_iff ..).mpr hstored) hdomains
    | pastCalendar hstored hdomains hpast =>
        rw [isDue_of_stored hnow hstored hdomains, if_pos hpast]
    | runsOut hstored hdomains hrange hexpires =>
        rw [isDue_of_stored hnow hstored hdomains, if_neg (Int.not_lt.mpr hrange),
          decide_eq_true hexpires]
    | lasts hstored hdomains hrange hexpires =>
        rw [isDue_of_stored hnow hstored hdomains, if_neg (Int.not_lt.mpr hrange),
          decide_eq_false hexpires]

/-- What is due stays due as time passes, and is due with more days to last. -/
theorem isDue_mono {later : Instant} {more : Nat} (hnow : now.Regular) (hlater : later.Regular)
    (htime : now.notAfter later = true) (hdays : days ≤ more)
    (hrange : later.unixSeconds + 86400 * more ≤ Instant.lastSecond)
    (hdue : store.isDue disk now domain domains days = .ok true) :
    store.isDue disk later domain domains more = .ok true := by
  rw [isDue_eq_iff hnow] at hdue
  rw [isDue_eq_iff hlater]
  cases hdue with
  | nothing hmissing => exact .nothing hmissing
  | otherDomains hstored hdomains => exact .otherDomains hstored hdomains
  | runsOut hstored hdomains _ hexpires =>
      refine .runsOut hstored hdomains hrange ?_
      rw [Instant.notAfter_iff_isBy] at htime
      unfold Instant.IsBy at *
      omega

end

end RegistryFront.Store
