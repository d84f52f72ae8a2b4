import RegistryFront.Proofs.Access.GroupName

/-!
# What groups grant together

Every name that follows the form grants its capability once for each time it is there, in the order of
the names, and nothing else is granted.  Names that do not follow the form make no difference.
-/

namespace RegistryFront.Access

/-! ## Rights -/

theorem Level.exists_iff {p : Level → Prop} :
    (∃ level, p level) ↔ p .read ∨ p .readDelete ∨ p .readWrite ∨ p .readWriteDelete := by
  constructor
  · rintro ⟨level, h⟩
    cases level <;> simp [h]
  · rintro (h | h | h | h) <;> exact ⟨_, h⟩

@[simp] theorem Capability.pullOnly_level (capability : Capability) :
    capability.level.pullOnly = capability.pullOnly :=
  congrArg Capability.pullOnly (Capability.ofLevel_level capability)

@[simp] theorem Capability.deleteAllowed_level (capability : Capability) :
    capability.level.deleteAllowed = capability.deleteAllowed :=
  congrArg Capability.deleteAllowed (Capability.ofLevel_level capability)

/-! ## Names that grant something -/

def Conventional (group : String) : Prop :=
  ∃ capability : Capability,
    capability.space ≠ "" ∧ group = capability.space ++ "_" ++ capability.level.token

theorem resolveGroup?_eq_some_iff_groupName {group : String} {capability : Capability} :
    resolveGroup? group = some capability ↔
      capability.space ≠ "" ∧ group = capability.groupName := by
  rw [resolveGroup?_eq_some_iff, Capability.ofGroup_eq_iff]
  constructor
  · rintro ⟨hspace, rfl⟩
    exact ⟨hspace, rfl⟩
  · rintro ⟨hspace, rfl⟩
    exact .granted hspace rfl

theorem isSome_resolveGroup?_iff {group : String} :
    (resolveGroup? group).isSome = true ↔ Conventional group := by
  simp only [Option.isSome_iff_exists, resolveGroup?_eq_some_iff_groupName, Conventional,
    Capability.groupName_eq]

instance : DecidablePred Conventional := fun _ => decidable_of_iff _ isSome_resolveGroup?_iff

/-! ## Lists of names -/

section

variable (groups : List String)

theorem mem_resolveGroups_iff {capability : Capability} :
    capability ∈ resolveGroups groups ↔
      capability.space ≠ "" ∧ capability.groupName ∈ groups := by
  simp only [resolveGroups, List.mem_filterMap, resolveGroup?_eq_some_iff_groupName]
  constructor
  · rintro ⟨group, hgroup, hspace, rfl⟩
    exact ⟨hspace, hgroup⟩
  · rintro ⟨hspace, hgroup⟩
    exact ⟨_, hgroup, hspace, rfl⟩

theorem count_resolveGroups {capability : Capability} (h : capability.space ≠ "") :
    (resolveGroups groups).count capability = groups.count capability.groupName := by
  rw [resolveGroups, List.count_filterMap, List.count]
  refine List.countP_congr fun group _ => ?_
  simp [resolveGroup?_eq_some_iff_groupName, h]

theorem map_groupName_resolveGroups :
    (resolveGroups groups).map Capability.groupName = groups.filter Conventional := by
  have hname : ∀ group, (resolveGroup? group).map Capability.groupName =
      Option.guard (fun group => decide (Conventional group)) group := by
    intro group
    rw [Option.guard]
    cases hresolve : resolveGroup? group with
    | none =>
        have hnot : ¬ Conventional group := by simp [← isSome_resolveGroup?_iff, hresolve]
        simp [hnot]
    | some capability =>
        have hgroup := (resolveGroup?_eq_some_iff_groupName.mp hresolve).2
        have hconventional : Conventional group := by
          simp [← isSome_resolveGroup?_iff, hresolve]
        simp [hconventional, ← hgroup]
  rw [resolveGroups, List.map_filterMap, ← List.filterMap_eq_filter]
  simp only [hname]

theorem resolveGroups_eq_iff {others : List String} :
    resolveGroups groups = resolveGroups others ↔
      groups.filter Conventional = others.filter Conventional := by
  rw [← map_groupName_resolveGroups, ← map_groupName_resolveGroups]
  exact (List.map_inj_right fun _ _ => Capability.groupName_injective).symm

theorem exists_granted_iff (space : String) (right : Level → Bool) :
    (∃ capability ∈ resolveGroups groups,
        capability.space = space ∧ right capability.level = true) ↔
      space ≠ "" ∧ ∃ level, right level = true ∧ space ++ "_" ++ level.token ∈ groups := by
  simp only [mem_resolveGroups_iff]
  constructor
  · rintro ⟨capability, ⟨hspace, hgroup⟩, rfl, hright⟩
    rw [Capability.groupName_eq] at hgroup
    exact ⟨hspace, _, hright, hgroup⟩
  · rintro ⟨hspace, level, hright, hgroup⟩
    refine ⟨.ofLevel space level, ⟨hspace, ?_⟩, rfl, by simpa using hright⟩
    rwa [Capability.groupName_eq, Capability.level_ofLevel]

theorem exists_push_iff (space : String) :
    (∃ capability ∈ resolveGroups groups,
        capability.space = space ∧ capability.pullOnly = false) ↔
      space ≠ "" ∧ (space ++ "_rw" ∈ groups ∨ space ++ "_rwd" ∈ groups) := by
  have hlevels := exists_granted_iff groups space fun level => !level.pullOnly
  simp only [Bool.not_eq_true', Capability.pullOnly_level, Level.exists_iff] at hlevels
  simpa [Level.pullOnly, Level.token, String.append_assoc] using hlevels

theorem exists_delete_iff (space : String) :
    (∃ capability ∈ resolveGroups groups,
        capability.space = space ∧ capability.deleteAllowed = true) ↔
      space ≠ "" ∧ (space ++ "_rd" ∈ groups ∨ space ++ "_rwd" ∈ groups) := by
  have hlevels := exists_granted_iff groups space Level.deleteAllowed
  simp only [Capability.deleteAllowed_level, Level.exists_iff] at hlevels
  simpa [Level.deleteAllowed, Level.token, String.append_assoc] using hlevels

/-- Each capability is granted as often as its name is there, in the order of the names, and nothing
else is; so pushing and deleting are allowed in a space by the two levels that allow it.  Lists are
granted one after the other, and they grant the same exactly when they hold the same names of the
form, whatever other names stand between them. -/
theorem resolveGroups_grants :
    (∀ capability, (resolveGroups groups).count capability =
      if capability.space = "" then 0
      else groups.count (capability.space ++ "_" ++ capability.level.token)) ∧
    (resolveGroups groups).map (fun capability =>
      capability.space ++ "_" ++ capability.level.token) = groups.filter Conventional ∧
    (∀ space,
      ((∃ capability ∈ resolveGroups groups,
          capability.space = space ∧ capability.pullOnly = false) ↔
        space ≠ "" ∧ (space ++ "_rw" ∈ groups ∨ space ++ "_rwd" ∈ groups)) ∧
      ((∃ capability ∈ resolveGroups groups,
          capability.space = space ∧ capability.deleteAllowed = true) ↔
        space ≠ "" ∧ (space ++ "_rd" ∈ groups ∨ space ++ "_rwd" ∈ groups))) ∧
    ∀ others,
      resolveGroups (groups ++ others) = resolveGroups groups ++ resolveGroups others ∧
      (resolveGroups groups = resolveGroups others ↔
        groups.filter Conventional = others.filter Conventional) := by
  simp only [← Capability.groupName_eq]
  refine ⟨fun capability => ?_, map_groupName_resolveGroups groups,
    fun space => ⟨exists_push_iff groups space, exists_delete_iff groups space⟩,
    fun others => ⟨List.filterMap_append, resolveGroups_eq_iff groups⟩⟩
  split
  · next hspace =>
      refine List.count_eq_zero.mpr fun hgranted => ?_
      exact ((mem_resolveGroups_iff groups).mp hgranted).1 hspace
  · next hspace => exact count_resolveGroups groups hspace

end

example : resolveGroups ["staff", "web_rw", "archive_rw_rd", "_rwd", "web_rw"] =
    [.ofLevel "web" .readWrite, .ofLevel "archive_rw" .readDelete, .ofLevel "web" .readWrite] := by
  decide

end RegistryFront.Access
