import RegistryFront.Access.Group

/-!
# Group names and capabilities

A group name grants a capability exactly when it is the capability's own name.  No token holds an
underscore, so the space ends at the last one, whatever the space is called; and every other name is
refused for one reason.
-/

namespace RegistryFront.Access

/-! ## Tokens -/

namespace Level

def tokens : List String := ["r", "rd", "rw", "rwd"]

theorem ofToken?_eq_some_iff {token : String} {level : Level} :
    ofToken? token = some level ↔ token = level.token := by
  constructor
  · intro h
    rw [ofToken?] at h
    have hfound := List.find?_some h
    exact (beq_iff_eq.mp hfound).symm
  · rintro rfl
    exact ofToken?_token level

theorem ofToken?_eq_none_iff {token : String} : ofToken? token = none ↔ token ∉ tokens := by
  have htokens : tokens = all.map Level.token := rfl
  rw [htokens, ofToken?, List.find?_eq_none]
  simp

theorem separator_not_mem_token (level : Level) : groupSeparator ∉ level.token.toList := by
  cases level <;> decide

end Level

/-! ## Names -/

namespace Capability

theorem groupName_eq (capability : Capability) :
    capability.groupName = capability.space ++ "_" ++ capability.level.token := by
  rw [← String.toList_inj]
  simp [groupName, groupSeparator]

theorem toList_groupName (capability : Capability) :
    capability.groupName.toList =
      capability.space.toList ++ groupSeparator :: capability.level.token.toList := by
  simp [groupName]

theorem splitLast?_groupName (capability : Capability) :
    Text.splitLast? groupSeparator capability.groupName.toList =
      some (capability.space.toList, capability.level.token.toList) :=
  Text.splitLast?_eq_some_iff.mpr
    ⟨toList_groupName capability, Level.separator_not_mem_token capability.level⟩

theorem groupName_injective {one other : Capability} (h : one.groupName = other.groupName) :
    one = other := by
  have hcut := splitLast?_groupName one
  rw [h, splitLast?_groupName other] at hcut
  simp only [Option.some.injEq, Prod.mk.injEq, String.toList_inj] at hcut
  obtain ⟨hspace, htoken⟩ := hcut
  have hlevel : other.level = one.level := by
    rw [← Option.some_inj, ← Level.ofToken?_token, htoken, Level.ofToken?_token]
  rw [← ofLevel_level one, ← ofLevel_level other, hspace, hlevel]

end Capability

/-! ## Reading a name -/

/-- What the reason for which a group is refused says of its name. -/
def GroupError.Fits (group : String) : GroupError → Prop
  | .missingSeparator named => named = group ∧ groupSeparator ∉ group.toList
  | .unknownToken named token =>
      named = group ∧ token ∉ Level.tokens ∧
        ∃ space, group.toList = space ++ groupSeparator :: token.toList ∧
          groupSeparator ∉ token.toList
  | .emptyNamespace named => named = group ∧ ∃ level : Level, group = "_" ++ level.token

inductive Reading (group : String) : Except GroupError Capability → Prop where
  | granted {capability : Capability} (hspace : capability.space ≠ "")
      (hname : capability.groupName = group) : Reading group (.ok capability)
  | refused {cause : GroupError} (hfits : cause.Fits group) : Reading group (.error cause)

namespace Capability

theorem groupName_ofLevel_empty (level : Level) :
    (ofLevel "" level).groupName = "_" ++ level.token := by
  rw [groupName_eq, level_ofLevel, ofLevel, String.empty_append]

theorem reading_ofGroup (group : String) : Reading group (ofGroup group) := by
  unfold ofGroup
  split
  · next hcut => exact .refused ⟨rfl, Text.splitLast?_eq_none_iff.mp hcut⟩
  · next space token hcut =>
      obtain ⟨hgroup, htoken⟩ := Text.splitLast?_eq_some_iff.mp hcut
      split
      · next hnone =>
          exact .refused ⟨rfl, Level.ofToken?_eq_none_iff.mp hnone, space, by simpa using hgroup,
            by simpa using htoken⟩
      · next level hlevel =>
          rw [Level.ofToken?_eq_some_iff] at hlevel
          have hname : (ofLevel (String.ofList space) level).groupName = group := by
            rw [← String.toList_inj, toList_groupName, level_ofLevel, ← hlevel, hgroup]
            simp [ofLevel]
          split
          · next hspace =>
              subst hspace
              exact .refused ⟨rfl, level, hname.symm.trans (groupName_ofLevel_empty level)⟩
          · next hspace => exact .granted (by simpa [ofLevel] using hspace) hname

theorem ofGroup_groupName {capability : Capability} (h : capability.space ≠ "") :
    ofGroup capability.groupName = .ok capability := by
  have hspace : capability.space.toList ≠ [] := by simpa using h
  rw [ofGroup, splitLast?_groupName]
  simp [hspace]

theorem ofGroup_of_fits {group : String} {cause : GroupError} (h : cause.Fits group) :
    ofGroup group = .error cause := by
  cases cause with
  | missingSeparator named =>
      obtain ⟨rfl, hnot⟩ := h
      rw [ofGroup, Text.splitLast?_eq_none_iff.mpr hnot]
  | unknownToken named token =>
      obtain ⟨rfl, hunknown, space, hgroup⟩ := h
      have hnone : Level.ofToken? token = none := Level.ofToken?_eq_none_iff.mpr hunknown
      rw [ofGroup, Text.splitLast?_eq_some_iff.mpr hgroup]
      simp [hnone]
  | emptyNamespace named =>
      obtain ⟨rfl, level, rfl⟩ := h
      rw [← groupName_ofLevel_empty, ofGroup, splitLast?_groupName]
      simp [ofLevel]

theorem ofGroup_eq_iff {group : String} {result : Except GroupError Capability} :
    ofGroup group = result ↔ Reading group result := by
  constructor
  · rintro rfl
    exact reading_ofGroup group
  · intro h
    cases h with
    | granted hspace hname => rw [← hname, ofGroup_groupName hspace]
    | refused hfits => exact ofGroup_of_fits hfits

end Capability

theorem resolveGroup?_eq_some_iff {group : String} {capability : Capability} :
    resolveGroup? group = some capability ↔ Capability.ofGroup group = .ok capability := by
  unfold resolveGroup?
  cases Capability.ofGroup group <;> simp [Except.toOption]

/-- A group name grants the capability it is the name of and no other one, and any other name is
refused for a reason that fits it. -/
theorem groupName_decides (group : String) :
    (∀ capability, Capability.ofGroup group = .ok capability ↔
      capability.space ≠ "" ∧ group = capability.space ++ "_" ++ capability.level.token) ∧
    (∀ cause, Capability.ofGroup group = .error cause ↔ cause.Fits group) ∧
    (∀ capability, resolveGroup? group = some capability ↔
      Capability.ofGroup group = .ok capability) ∧
    ∀ one other : Capability, one.groupName = group → other.groupName = group → one = other := by
  refine ⟨fun capability => ?_, fun cause => ?_, fun _ => resolveGroup?_eq_some_iff,
    fun one other hone hother => Capability.groupName_injective (hone.trans hother.symm)⟩
  · rw [Capability.ofGroup_eq_iff, ← Capability.groupName_eq]
    constructor
    · rintro ⟨hspace, rfl⟩
      exact ⟨hspace, rfl⟩
    · rintro ⟨hspace, rfl⟩
      exact .granted hspace rfl
  · rw [Capability.ofGroup_eq_iff]
    constructor
    · intro h
      cases h with
      | refused hfits => exact hfits
    · exact .refused

end RegistryFront.Access
