import RegistryFront.Proofs.Files.Growth

/-!
# Walking a path

A walk that arrives is a derivation, one rule for what may be met on the way.  Hence a walk can be
cut in two at a directory, lone dots in it do not matter, and it arrives where it did when the
disk grows.
-/

namespace RegistryFront.Files.Disk

structure IsName (name : String) : Prop where
  ne_dot : name ≠ "."
  ne_up : name ≠ ".."
  size_le : Text.Utf8.size name ≤ maxName

inductive Leads (disk : Disk) (followLast : Bool) : Nat → Place → List String → Place → Prop where
  | arrived {links here} : Leads disk followLast links here [] here
  | stay {links here rest place} (hrest : Leads disk followLast links here rest place) :
      Leads disk followLast links here ("." :: rest) place
  | up {links here rest place} (hrest : Leads disk followLast links here.dropLast rest place) :
      Leads disk followLast links here (".." :: rest) place
  | missing {links here name} (hname : IsName name) (hnode : disk.node? (here ++ [name]) = none) :
      Leads disk followLast links here [name] (here ++ [name])
  | file {links here name mode content} (hname : IsName name)
      (hnode : disk.node? (here ++ [name]) = some (.file mode content)) :
      Leads disk followLast links here [name] (here ++ [name])
  | directory {links here name rest place mode} (hname : IsName name)
      (hnode : disk.node? (here ++ [name]) = some (.directory mode))
      (hrest : Leads disk followLast links (here ++ [name]) rest place) :
      Leads disk followLast links here (name :: rest) place
  | link {links here name target} (hname : IsName name)
      (hnode : disk.node? (here ++ [name]) = some (.link target)) (hlast : followLast = false) :
      Leads disk followLast links here [name] (here ++ [name])
  | follow {links here name rest place target} (hname : IsName name)
      (hnode : disk.node? (here ++ [name]) = some (.link target))
      (hfollow : rest ≠ [] ∨ followLast = true)
      (hrest : Leads disk followLast links (if Path.isAbsolute target then [] else here)
        (Path.parts target ++ rest) place) :
      Leads disk followLast (links + 1) here (name :: rest) place

theorem leads_of_walk {disk : Disk} {followLast : Bool} {links : Nat} {here place : Place}
    {names : List String} (h : disk.walk followLast links here names = .ok place) :
    disk.Leads followLast links here names place := by
  fun_induction Disk.walk disk followLast links here names with
  | case1 => cases h; exact .arrived
  | case2 _ _ _ ih => exact .stay (ih h)
  | case3 _ _ _ _ ih => exact .up (ih h)
  | case4 => cases h
  | case5 _ _ _ hdot hup hsize _ hnode =>
      rw [← Except.ok.inj h]
      exact .missing ⟨hdot, hup, Nat.not_lt.mp hsize⟩ hnode
  | case6 => cases h
  | case7 _ _ _ hdot hup hsize _ _ _ hnode =>
      rw [← Except.ok.inj h]
      exact .file ⟨hdot, hup, Nat.not_lt.mp hsize⟩ hnode
  | case8 => cases h
  | case9 _ _ _ _ hdot hup hsize _ _ hnode ih =>
      exact .directory ⟨hdot, hup, Nat.not_lt.mp hsize⟩ hnode (ih h)
  | case10 _ _ _ _ hdot hup hsize _ _ hnode hlast =>
      rw [← Except.ok.inj h]
      simp only [Bool.and_eq_true, decide_eq_true_eq, Bool.not_eq_true'] at hlast
      obtain ⟨rfl, hlast⟩ := hlast
      exact .link ⟨hdot, hup, Nat.not_lt.mp hsize⟩ hnode hlast
  | case11 => cases h
  | case12 _ _ _ hdot hup hsize _ _ hnode hfollow _ ih =>
      refine .follow ⟨hdot, hup, Nat.not_lt.mp hsize⟩ hnode ?_ (ih h)
      simpa [Decidable.imp_iff_not_or] using hfollow

private theorem walk_of_directory {disk : Disk} {followLast : Bool} {links mode : Nat}
    {here : Place} {name : String} (hname : IsName name)
    (hnode : disk.node? (here ++ [name]) = some (.directory mode)) (rest : List String) :
    disk.walk followLast links here (name :: rest) =
      disk.walk followLast links (here ++ [name]) rest := by
  rw [walk, if_neg hname.ne_dot, if_neg hname.ne_up, if_neg (Nat.not_lt.mpr hname.size_le)]
  simp [hnode]

private theorem walk_of_link {disk : Disk} {followLast : Bool} {here : Place}
    {name target : String} (hname : IsName name)
    (hnode : disk.node? (here ++ [name]) = some (.link target)) {rest : List String}
    (hfollow : rest ≠ [] ∨ followLast = true) (links : Nat) :
    disk.walk followLast (links + 1) here (name :: rest) =
      disk.walk followLast links (if Path.isAbsolute target then [] else here)
        (Path.parts target ++ rest) := by
  have hlast : ¬ (decide (rest = []) && !followLast) = true := by
    simpa [Decidable.imp_iff_not_or] using hfollow
  rw [walk, if_neg hname.ne_dot, if_neg hname.ne_up, if_neg (Nat.not_lt.mpr hname.size_le)]
  simp only [hnode, if_neg hlast]

theorem Leads.walk_eq {disk : Disk} {followLast : Bool} {links : Nat} {here place : Place}
    {names : List String} (h : disk.Leads followLast links here names place) :
    disk.walk followLast links here names = .ok place := by
  induction h with
  | arrived => rw [walk]
  | stay _ ih => rw [walk, if_pos rfl, ih]
  | up _ ih => rw [walk, if_neg (by decide), if_pos rfl, ih]
  | missing hname hnode =>
      rw [walk, if_neg hname.ne_dot, if_neg hname.ne_up, if_neg (Nat.not_lt.mpr hname.size_le)]
      simp [hnode]
  | file hname hnode =>
      rw [walk, if_neg hname.ne_dot, if_neg hname.ne_up, if_neg (Nat.not_lt.mpr hname.size_le)]
      simp [hnode]
  | directory hname hnode _ ih => rw [walk_of_directory hname hnode, ih]
  | link hname hnode hlast =>
      rw [walk, if_neg hname.ne_dot, if_neg hname.ne_up, if_neg (Nat.not_lt.mpr hname.size_le)]
      simp [hnode, hlast]
  | follow hname hnode hfollow _ ih => rw [walk_of_link hname hnode hfollow, ih]

theorem walk_eq_ok_iff {disk : Disk} {followLast : Bool} {links : Nat} {here place : Place}
    {names : List String} :
    disk.walk followLast links here names = .ok place ↔
      disk.Leads followLast links here names place :=
  ⟨leads_of_walk, Leads.walk_eq⟩

/-! ## Walks on another disk, walks in two parts -/

theorem Grows.leads {before after : Disk} (hgrows : Grows before after) {followLast : Bool}
    {links : Nat} {here place : Place} {names : List String}
    (h : before.Leads followLast links here names place) :
    after.Leads followLast links here names place := by
  induction h with
  | arrived => exact .arrived
  | stay _ ih => exact .stay ih
  | up _ ih => exact .up ih
  | @missing _ here name hname hnode =>
      cases hafter : after.node? (here ++ [name]) with
      | none => exact .missing hname hafter
      | some node =>
          cases node with
          | file => exact .file hname hafter
          | directory => exact .directory hname hafter .arrived
          | link =>
              rw [hgrows.link] at hafter
              simp [hnode] at hafter
  | file hname hnode =>
      obtain ⟨mode, content, hafter⟩ := hgrows.file _ _ _ hnode
      exact .file hname hafter
  | directory hname hnode _ ih =>
      obtain ⟨mode, hafter⟩ := hgrows.directory _ _ hnode
      exact .directory hname hafter ih
  | link hname hnode hlast => exact .link hname ((hgrows.link _ _).mpr hnode) hlast
  | follow hname hnode hfollow _ ih =>
      exact .follow hname ((hgrows.link _ _).mpr hnode) hfollow ih

theorem Leads.walk_append {disk : Disk} {links mode : Nat} {here middle : Place}
    {front : List String} (h : disk.Leads true links here front middle)
    (hmiddle : disk.node? middle = some (.directory mode)) :
    ∃ left, ∀ followLast names, names ≠ [] ∨ followLast = true →
      disk.walk followLast links here (front ++ names) =
        disk.walk followLast left middle names := by
  induction h with
  | arrived => exact ⟨_, fun _ _ _ => rfl⟩
  | stay _ ih =>
      obtain ⟨left, ih⟩ := ih hmiddle
      refine ⟨left, fun followLast names hgo => ?_⟩
      rw [List.cons_append, walk, if_pos rfl, ih followLast names hgo]
  | up _ ih =>
      obtain ⟨left, ih⟩ := ih hmiddle
      refine ⟨left, fun followLast names hgo => ?_⟩
      rw [List.cons_append, walk, if_neg (by decide), if_pos rfl, ih followLast names hgo]
  | missing _ hnode => simp [hnode] at hmiddle
  | file _ hnode => simp [hnode] at hmiddle
  | directory hname hnode _ ih =>
      obtain ⟨left, ih⟩ := ih hmiddle
      refine ⟨left, fun followLast names hgo => ?_⟩
      rw [List.cons_append, walk_of_directory hname hnode, ih followLast names hgo]
  | link _ _ hlast => simp at hlast
  | @follow _ _ _ rest _ target hname hnode _ _ ih =>
      obtain ⟨left, ih⟩ := ih hmiddle
      refine ⟨left, fun followLast names hgo => ?_⟩
      have hfollow : rest ++ names ≠ [] ∨ followLast = true :=
        hgo.imp_left fun hnames => List.append_ne_nil_of_right_ne_nil rest hnames
      rw [List.cons_append, walk_of_link hname hnode hfollow, ← ih followLast names hgo,
        List.append_assoc]

/-! ## Lone dots -/

inductive Undotted : List String → List String → Prop where
  | nil : Undotted [] []
  | skip {names fewer} (hrest : Undotted names fewer) : Undotted ("." :: names) fewer
  | keep {names fewer} (name : String) (hrest : Undotted names fewer) :
      Undotted (name :: names) (name :: fewer)

theorem undotted_append {names fewer : List String} (front : List String)
    (h : Undotted names fewer) : Undotted (front ++ names) (front ++ fewer) := by
  induction front with
  | nil => exact h
  | cons name _ ih => exact .keep name ih

theorem undotted_filter (names : List String) : Undotted names (names.filter (· ≠ ".")) := by
  induction names with
  | nil => exact .nil
  | cons name rest ih =>
      by_cases hname : name = "."
      · subst hname
        simpa using Undotted.skip ih
      · simpa [hname] using Undotted.keep name ih

private theorem undotted_cons {name : String} {rest fewer : List String} (hname : name ≠ ".")
    (h : Undotted (name :: rest) fewer) :
    ∃ others, fewer = name :: others ∧ Undotted rest others := by
  cases h with
  | skip => exact absurd rfl hname
  | keep _ hrest => exact ⟨_, rfl, hrest⟩

theorem Leads.undotted {disk : Disk} {links : Nat} {here place : Place} {names fewer : List String}
    (h : disk.Leads true links here names place) (hfewer : Undotted names fewer) :
    disk.Leads true links here fewer place := by
  induction h generalizing fewer with
  | arrived => cases hfewer; exact .arrived
  | stay _ ih =>
      cases hfewer with
      | skip hrest => exact ih hrest
      | keep _ hrest => exact .stay (ih hrest)
  | up _ ih =>
      obtain ⟨others, rfl, hrest⟩ := undotted_cons (by decide) hfewer
      exact .up (ih hrest)
  | missing hname hnode =>
      -- after the last name there are no dots to leave out
      obtain ⟨others, rfl, hrest⟩ := undotted_cons hname.ne_dot hfewer
      cases hrest
      exact .missing hname hnode
  | file hname hnode =>
      obtain ⟨others, rfl, hrest⟩ := undotted_cons hname.ne_dot hfewer
      cases hrest
      exact .file hname hnode
  | directory hname hnode _ ih =>
      obtain ⟨others, rfl, hrest⟩ := undotted_cons hname.ne_dot hfewer
      exact .directory hname hnode (ih hrest)
  | link _ _ hlast => simp at hlast
  | follow hname hnode _ _ ih =>
      obtain ⟨others, rfl, hrest⟩ := undotted_cons hname.ne_dot hfewer
      exact .follow hname hnode (.inr rfl) (ih (undotted_append _ hrest))

end RegistryFront.Files.Disk
