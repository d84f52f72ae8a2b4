import RegistryFront.Time.Instant

/-!
# Instants in order
-/

namespace RegistryFront.Time.Instant

theorem notAfter_iff (a b : Instant) :
    a.notAfter b = true ↔
      a.day < b.day ∨
        a.day = b.day ∧ (a.second < b.second ∨ a.second = b.second ∧ a.nano ≤ b.nano) := by
  unfold notAfter
  split
  · next hday => simp [hday]
  · next hday =>
      rw [Decidable.not_not] at hday
      split
      · next hsecond => simp [hday, hsecond]
      · next hsecond =>
          rw [Decidable.not_not] at hsecond
          simp [hday, hsecond]

theorem notAfter_refl (a : Instant) : a.notAfter a = true := by
  rw [notAfter_iff]
  omega

theorem notAfter_trans {a b c : Instant} (hab : a.notAfter b = true) (hbc : b.notAfter c = true) :
    a.notAfter c = true := by
  rw [notAfter_iff] at hab hbc ⊢
  omega

/-- A reading of a clock that knows no leap seconds. -/
def Regular (t : Instant) : Prop := t.nano < billion

theorem regular_epoch : epoch.Regular := by
  unfold Regular epoch billion
  decide

theorem make?_eq_some {day : Int} {second nano : Nat} {t : Instant}
    (h : make? day second nano = some t) : t.day = day ∧ t.second = second ∧ t.nano = nano := by
  unfold make? at h
  split at h
  · obtain rfl := Option.some.inj h
    exact ⟨rfl, rfl, rfl⟩
  · cases h

theorem addDays?_eq_some {t later : Instant} {days : Nat} (h : t.addDays? days = some later) :
    later.day = t.day + days ∧ later.second = t.second ∧
      (t.Regular → later.nano = t.nano) := by
  obtain ⟨hday, hsecond, hnano⟩ := make?_eq_some h
  refine ⟨hday, hsecond, fun hregular => hnano.trans ?_⟩
  split
  · rfl
  · exact Nat.mod_eq_of_lt hregular

theorem notAfter_addDays {a b later later' : Instant} {days : Nat} (h : a.notAfter b = true)
    (ha : a.Regular) (hb : b.Regular) (hlater : a.addDays? days = some later)
    (hlater' : b.addDays? days = some later') : later.notAfter later' = true := by
  obtain ⟨hday, hsecond, hnano⟩ := addDays?_eq_some hlater
  obtain ⟨hday', hsecond', hnano'⟩ := addDays?_eq_some hlater'
  rw [notAfter_iff] at h ⊢
  rw [hday, hday', hsecond, hsecond', hnano ha, hnano' hb]
  omega

/-! ## Seconds and nanoseconds -/

def IsBy (t : Instant) (second : Int) (nano : Nat) : Prop :=
  t.unixSeconds < second ∨ t.unixSeconds = second ∧ t.nano ≤ nano

instance (t : Instant) (second : Int) (nano : Nat) : Decidable (t.IsBy second nano) :=
  inferInstanceAs (Decidable (_ ∨ _))

theorem notAfter_iff_isBy (a b : Instant) :
    a.notAfter b = true ↔ a.IsBy b.unixSeconds b.nano := by
  have ha := a.second_lt
  have hb := b.second_lt
  unfold secondsPerDay at ha hb
  rw [notAfter_iff]
  unfold IsBy unixSeconds secondsPerDay
  omega

def lastSecond : Int := Calendar.dayNumber ⟨Calendar.maxYear, 12, 31⟩ * 86400 + 86399

theorem lastSecond_eq : lastSecond = Calendar.maxDay * 86400 + 86399 := by decide

/-- Only the end of the calendar keeps days from being added. -/
theorem addDays?_eq_none_iff (t : Instant) (days : Nat) :
    t.addDays? days = none ↔ lastSecond < t.unixSeconds + 86400 * days := by
  have hfirst := t.day_ge
  have hsecond := t.second_lt
  have hfits : (if days = 0 then t.nano else t.nano % billion) < 2 * billion ∧
      (billion ≤ (if days = 0 then t.nano else t.nano % billion) → t.second % 60 = 59) := by
    split
    · exact ⟨t.nano_lt, t.leap⟩
    · have hmod : t.nano % billion < billion := Nat.mod_lt _ (by decide)
      omega
  have hpast : ¬ t.day + days ≤ Calendar.maxDay ↔ lastSecond < t.unixSeconds + 86400 * days := by
    rw [lastSecond_eq]
    unfold unixSeconds secondsPerDay at *
    omega
  have hday : Calendar.minDay ≤ t.day + days := by omega
  rw [← hpast, addDays?, make?]
  by_cases hrange : t.day + days ≤ Calendar.maxDay
  · rw [dif_pos ⟨⟨hday, hrange⟩, hsecond, hfits⟩]
    simp [hrange]
  · rw [dif_neg fun h => hrange h.1.2]
    simp [hrange]

theorem unixSeconds_of_addDays? {t limit : Instant} {days : Nat} (h : t.addDays? days = some limit) :
    limit.unixSeconds = t.unixSeconds + 86400 * days := by
  obtain ⟨hday, hsecond, -⟩ := addDays?_eq_some h
  unfold unixSeconds secondsPerDay
  rw [hday, hsecond]
  omega

end RegistryFront.Time.Instant
