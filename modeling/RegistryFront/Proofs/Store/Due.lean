import RegistryFront.Proofs.Store.Saving
import RegistryFront.Proofs.Time.Instant

/-!
# Due for good

A certificate that is due stays due as time passes.  A save that stops over one that is due leaves a
record that is due as well, or none: what may be mixed up is never taken for a certificate in order.
-/

namespace RegistryFront.Store

open Files
open Time (Instant)

variable {domains : List String} {days : Nat}

/-! ## Records -/

def Record.Fresh (record : Record) (now : Instant) (domains : List String) (days : Nat) : Prop :=
  record.domains = domains ∧
    ∃ limit, now.addDays? days = some limit ∧ record.expires.notAfter limit = false

/-- The record is not fresh at any time from now on. -/
def Record.Spent (record : Record) (now : Instant) (domains : List String) (days : Nat) : Prop :=
  ∀ later, now.notAfter later = true → later.Regular → ¬ record.Fresh later domains days

theorem Record.Spent.mono {record : Record} {now later : Instant}
    (h : record.Spent now domains days) (hlater : now.notAfter later = true) :
    record.Spent later domains days :=
  fun last hlast => h last (Instant.notAfter_trans hlater hlast)

theorem Record.spent_of_domains {record : Record} (h : record.domains ≠ domains) (now : Instant) :
    record.Spent now domains days :=
  fun _ _ _ hfresh => h hfresh.1

theorem Record.spent_of_expires {record : Record} {now limit : Instant} (hnow : now.Regular)
    (hlimit : now.addDays? days = some limit) (hexpires : record.expires.notAfter limit = true) :
    record.Spent now domains days := by
  rintro later hlater hregular ⟨-, limit', hlimit', hfresh⟩
  have hlimits := Instant.notAfter_addDays hlater hnow hregular hlimit hlimit'
  rw [Instant.notAfter_trans hexpires hlimits] at hfresh
  cases hfresh

/-! ## Shelves -/

def Shelf.Recorded (shelf : Shelf) (record : Record) : Prop :=
  ∃ content text, shelf .record = some content ∧ Disk.textOf content = .ok text ∧
    Record.read text = .ok record

/-- With the record there are the other two files. -/
def Shelf.Ordered (shelf : Shelf) : Prop := shelf .record ≠ none → ∀ part, shelf part ≠ none

def Shelf.Spent (shelf : Shelf) (now : Instant) (domains : List String) (days : Nat) : Prop :=
  ∀ record, shelf.Recorded record → record.Spent now domains days

theorem Shelf.Spent.mono {shelf : Shelf} {now later : Instant} (h : shelf.Spent now domains days)
    (hlater : now.notAfter later = true) : shelf.Spent later domains days :=
  fun record hrecord => (h record hrecord).mono hlater

theorem Shelf.recorded_of_load {shelf : Shelf} {found : StoredCertificate}
    (h : shelf.load = .ok (some found)) :
    shelf.Recorded found.record ∧ ∀ record, shelf.Recorded record → record = found.record := by
  unfold load at h
  split at h
  · next chain key content _ _ hcontent =>
      split at h
      · next text _ _ htext =>
          split at h
          · next record hread =>
              cases h
              refine ⟨⟨content, text, hcontent, htext, hread⟩, ?_⟩
              rintro other ⟨content', text', hcontent', htext', hread'⟩
              rw [hcontent] at hcontent'
              cases hcontent'
              rw [htext] at htext'
              cases htext'
              rw [hread] at hread'
              exact (Except.ok.inj hread').symm
          · cases h
      all_goals cases h
  · cases h

theorem Shelf.Ordered.record_of_load {shelf : Shelf} (h : shelf.Ordered)
    (hload : shelf.load = .ok none) : shelf .record = none := by
  cases hrecord : shelf .record with
  | none => rfl
  | some content =>
      have hparts := h (by simp [hrecord])
      obtain ⟨chain, hchain⟩ := Option.ne_none_iff_exists'.mp (hparts .chain)
      obtain ⟨key, hkey⟩ := Option.ne_none_iff_exists'.mp (hparts .key)
      simp only [load, hchain, hkey, hrecord] at hload
      split at hload
      · split at hload <;> cases hload
      all_goals cases hload

section

variable {store : Store} {disk : Disk} {now : Instant} {domain : String}

theorem spent_of_isDue (hnow : now.Regular) (hordered : (store.shelf disk domain).Ordered)
    (h : store.isDue disk now domain domains days = .ok true) :
    (store.shelf disk domain).Spent now domains days := by
  unfold isDue at h
  rw [load_eq] at h
  split at h
  · cases h
  · next hnone =>
      rintro record ⟨content, -, hcontent, -⟩
      rw [hordered.record_of_load hnone] at hcontent
      cases hcontent
  · next found hfound =>
      intro record hrecord
      obtain rfl := (Shelf.recorded_of_load hfound).2 record hrecord
      split at h
      · next hdomains => exact Record.spent_of_domains hdomains now
      · split at h
        · cases h
        · next limit hlimit => exact Record.spent_of_expires hnow hlimit (Except.ok.inj h)

theorem fresh_of_isDue (h : store.isDue disk now domain domains days = .ok false) :
    ∃ found, store.load disk domain = .ok (some found) ∧ found.record.Fresh now domains days := by
  unfold isDue at h
  split at h
  · cases h
  · cases h
  · next found hfound =>
      split at h
      · cases h
      · next hdomains =>
          split at h
          · cases h
          · next limit hlimit =>
              exact ⟨found, hfound, Decidable.not_not.mp hdomains, limit, hlimit, Except.ok.inj h⟩

theorem isDue_of_fresh {found : StoredCertificate}
    (hload : store.load disk domain = .ok (some found))
    (hfresh : found.record.Fresh now domains days) :
    store.isDue disk now domain domains days = .ok false := by
  obtain ⟨hdomains, limit, hlimit, hexpires⟩ := hfresh
  unfold isDue
  rw [hload]
  dsimp only
  rw [if_neg (not_not_intro hdomains), hlimit]
  exact congrArg Except.ok hexpires

theorem isDue_of_missing (hload : store.load disk domain = .ok none) :
    store.isDue disk now domain domains days = .ok true := by
  unfold isDue
  rw [hload]

theorem Shelf.Spent.isDue_ne (h : (store.shelf disk domain).Spent now domains days)
    (hnow : now.Regular) : store.isDue disk now domain domains days ≠ .ok false := by
  intro hdue
  obtain ⟨found, hload, hfresh⟩ := fresh_of_isDue hdue
  rw [load_eq] at hload
  exact h _ (Shelf.recorded_of_load hload).1 now (Instant.notAfter_refl now) hnow hfresh

end

/-! ## Saves that stop -/

theorem Shelf.left_record (shelf : Shelf) (certificate : StoredCertificate) {done : Nat}
    (hdone : done < 5) (cut : Bool) :
    shelf.left (saveEntries certificate) done cut .record =
      if done = 4 ∧ cut = true then some (some (Text.Utf8.encode "")) else shelf .record := by
  have hstages : done = 0 ∨ done = 1 ∨ done = 2 ∨ done = 3 ∨ done = 4 := by omega
  rcases hstages with rfl | rfl | rfl | rfl | rfl <;> cases cut <;>
    simp [saveEntries, left, put]

theorem Shelf.put_ne_none {shelf : Shelf} {part : Part} (h : shelf part ≠ none) (entry : Entry) :
    shelf.put entry part ≠ none := by
  cases entry with
  | none => exact h
  | some entry =>
      by_cases hpart : part = entry.1
      · subst hpart
        simp [put]
      · simpa [put, Function.update_of_ne hpart] using h

theorem Shelf.left_ne_none {shelf : Shelf} {part : Part} (h : shelf part ≠ none)
    (entries : List Entry) (done : Nat) (cut : Bool) : shelf.left entries done cut part ≠ none := by
  induction entries generalizing shelf done with
  | nil => exact h
  | cons entry rest ih =>
      cases done with
      | zero =>
          cases cut with
          | false => exact h
          | true => exact put_ne_none h _
      | succ done => exact ih (put_ne_none h entry) done

theorem Shelf.Spent.left {shelf : Shelf} {now : Instant} (h : shelf.Spent now domains days)
    (certificate : StoredCertificate) {done : Nat} (hdone : done < 5) (cut : Bool) :
    (shelf.left (saveEntries certificate) done cut).Spent now domains days := by
  rintro record ⟨content, text, hcontent, htext, hread⟩
  rw [shelf.left_record certificate hdone cut] at hcontent
  split at hcontent
  · -- an empty file is no record
    rw [Option.some.injEq] at hcontent
    subst hcontent
    obtain ⟨cause, hcause⟩ := Record.read_empty
    simp only [Disk.textOf, Text.Utf8.decode?_encode] at htext
    cases htext
    rw [hcause] at hread
    cases hread
  · exact h record ⟨content, text, hcontent, htext, hread⟩

theorem Shelf.Ordered.left {shelf : Shelf} (h : shelf.Ordered) (certificate : StoredCertificate)
    {done : Nat} (hdone : done < 5) (cut : Bool) :
    (shelf.left (saveEntries certificate) done cut).Ordered := by
  intro hrecord part
  rw [shelf.left_record certificate hdone cut] at hrecord
  split at hrecord
  · next hlast =>
      obtain ⟨rfl, rfl⟩ := hlast
      cases part <;> simp [saveEntries, Shelf.left, put, Function.update]
  · exact left_ne_none (h hrecord part) _ done cut

end RegistryFront.Store
