import Mathlib.Data.List.Induction
import RegistryFront.Proofs.Files.Path
import RegistryFront.Proofs.Files.Walk

/-!
# A tree of files

Below some directory there are no links, and every node lies in a directory.  There a path says by
its names where it leads, and an action changes the places it names and no others.
-/

namespace RegistryFront.Files.Disk

/-! ## Trees -/

def DirectoryAt (disk : Disk) (place : Place) : Prop :=
  ∃ mode, disk.node? place = some (.directory mode)

/-- No links below the root, and nothing outside of a directory. -/
structure Tree (disk : Disk) (root : Place) : Prop where
  directory : disk.DirectoryAt root
  parent : ∀ names name, disk.node? (root ++ (names ++ [name])) ≠ none →
    disk.DirectoryAt (root ++ names)
  link : ∀ names target, disk.node? (root ++ names) ≠ some (.link target)

theorem Grows.directoryAt {before after : Disk} (h : Grows before after) {place : Place}
    (hbefore : before.DirectoryAt place) : after.DirectoryAt place := by
  obtain ⟨mode, hmode⟩ := hbefore
  exact h.directory place mode hmode

theorem Tree.directoryAt {disk : Disk} {root : Place} (h : disk.Tree root)
    {names deeper : List String}
    (hdeeper : deeper ≠ []) (hnode : disk.node? (root ++ (names ++ deeper)) ≠ none) :
    disk.DirectoryAt (root ++ names) := by
  induction deeper using List.reverseRecOn with
  | nil => exact absurd rfl hdeeper
  | append_singleton deeper name ih =>
      rw [← List.append_assoc names] at hnode
      have hparent := h.parent (names ++ deeper) name hnode
      by_cases hnil : deeper = []
      · subst hnil
        simpa using hparent
      · obtain ⟨mode, hmode⟩ := hparent
        exact ih hnil (by simp [hmode])

/-! ## Where the names lead -/

def undot (names : List String) : List String := names.filter (· ≠ ".")

@[simp] theorem undot_nil : undot [] = [] := rfl

@[simp] theorem undot_dot (names : List String) : undot ("." :: names) = undot names := by
  simp [undot]

theorem undot_cons {name : String} (h : name ≠ ".") (names : List String) :
    undot (name :: names) = name :: undot names := by
  simp [undot, h]

@[simp] theorem undot_append (names others : List String) :
    undot (names ++ others) = undot names ++ undot others := List.filter_append ..

structure Arrives (disk : Disk) (root : Place) (done names : List String) (place : Place) :
    Prop where
  place_eq : place = root ++ (done ++ undot names)
  parent : ∀ front last, undot names = front ++ [last] → disk.DirectoryAt (root ++ (done ++ front))
  size_le : ∀ name ∈ names, Text.Utf8.size name ≤ maxName

private theorem arrives_one {disk : Disk} {root : Place} {done : List String} {name : String}
    (hdone : disk.DirectoryAt (root ++ done)) (hname : IsName name) :
    Arrives disk root done [name] (root ++ done ++ [name]) := by
  refine ⟨by simp [undot_cons hname.ne_dot], fun front last hsplit => ?_, ?_⟩
  · rw [undot_cons hname.ne_dot, undot_nil, ← List.nil_append [name]] at hsplit
    obtain ⟨rfl, -⟩ := List.append_inj' hsplit rfl
    simpa using hdone
  · simpa using hname.size_le

private theorem size_dot_le : Text.Utf8.size "." ≤ maxName := by decide

theorem Tree.arrives {disk : Disk} {root : Place} (h : disk.Tree root) {followLast : Bool}
    {links : Nat} {done names : List String} {place : Place} (hinner : ".." ∉ names)
    (hdone : disk.DirectoryAt (root ++ done))
    (hleads : disk.Leads followLast links (root ++ done) names place) :
    Arrives disk root done names place := by
  induction names generalizing done with
  | nil =>
      cases hleads
      exact ⟨by simp, by simp, by simp⟩
  | cons name rest ih =>
      rw [List.mem_cons, not_or] at hinner
      cases hleads with
      | stay hrest =>
          obtain ⟨hplace, hparent, hsize⟩ := ih hinner.2 hdone hrest
          refine ⟨by simpa using hplace, by simpa using hparent, ?_⟩
          simpa [size_dot_le] using hsize
      | up => exact absurd rfl hinner.1
      | missing hname => exact arrives_one hdone hname
      | file hname => exact arrives_one hdone hname
      | @directory _ _ _ _ _ mode hname hnode hrest =>
          rw [List.append_assoc] at hnode hrest
          obtain ⟨hplace, hparent, hsize⟩ := ih hinner.2 ⟨mode, hnode⟩ hrest
          refine ⟨by simpa [undot_cons hname.ne_dot] using hplace, fun front last hsplit => ?_, ?_⟩
          · rw [undot_cons hname.ne_dot] at hsplit
            cases front with
            | nil => simpa using hdone
            | cons first front =>
                rw [List.cons_append, List.cons.injEq] at hsplit
                obtain ⟨rfl, hsplit⟩ := hsplit
                simpa using hparent front last hsplit
          · simpa [hname.size_le] using hsize
      | link _ hnode =>
          rw [List.append_assoc] at hnode
          exact absurd hnode (h.link _ _)
      | follow _ hnode =>
          rw [List.append_assoc] at hnode
          exact absurd hnode (h.link _ _)

private theorem eq_nil_of_undot {names : List String} (hnil : undot names = [])
    (hlast : names.getLast? ≠ some ".") : names = [] := by
  cases hend : names.getLast? with
  | none => simpa using hend
  | some last =>
      have hmem : last ∈ undot names := by
        rw [undot, List.mem_filter]
        exact ⟨List.mem_of_getLast? hend, by simpa [hend] using hlast⟩
      simp [hnil] at hmem

private theorem Tree.leads_one {disk : Disk} {root : Place} (h : disk.Tree root) (followLast : Bool)
    (links : Nat) {done : List String} {name : String} (hname : IsName name)
    (hnode : disk.node? (root ++ (done ++ [name])) ≠ none) :
    disk.Leads followLast links (root ++ done) [name] (root ++ (done ++ [name])) := by
  have hlink := h.link (done ++ [name])
  rw [← List.append_assoc] at hnode hlink ⊢
  cases hfound : disk.node? (root ++ done ++ [name]) with
  | none => exact absurd hfound hnode
  | some node =>
      cases node with
      | file => exact .file hname hfound
      | directory => exact .directory hname hfound .arrived
      | link => exact absurd hfound (hlink _)

theorem Tree.leads {disk : Disk} {root : Place} (h : disk.Tree root) (followLast : Bool)
    (links : Nat) (done : List String) {names : List String} (hinner : ".." ∉ names)
    (hsize : ∀ name ∈ names, Text.Utf8.size name ≤ maxName) (hlast : names.getLast? ≠ some ".")
    (hnode : disk.node? (root ++ (done ++ undot names)) ≠ none) :
    disk.Leads followLast links (root ++ done) names (root ++ (done ++ undot names)) := by
  induction names generalizing done with
  | nil => simpa using Leads.arrived
  | cons name rest ih =>
      rw [List.mem_cons, not_or] at hinner
      have hrestSize := fun other hmem => hsize other (List.mem_cons_of_mem _ hmem)
      have hrestLast : rest.getLast? ≠ some "." := by
        cases rest with
        | nil => simp
        | cons => simpa [List.getLast?_cons] using hlast
      by_cases hdot : name = "."
      · subst hdot
        rw [undot_dot] at hnode ⊢
        exact .stay (ih done hinner.2 hrestSize hrestLast hnode)
      · have hname : IsName name := ⟨hdot, Ne.symm hinner.1, hsize name List.mem_cons_self⟩
        have hsplit : done ++ undot (name :: rest) = (done ++ [name]) ++ undot rest := by
          simp [undot_cons hdot]
        rw [hsplit] at hnode ⊢
        -- a name with another one after it has to be a directory, the last one need not be
        by_cases hend : undot rest = []
        · obtain rfl := eq_nil_of_undot hend hrestLast
          rw [undot_nil, List.append_nil] at hnode ⊢
          exact h.leads_one followLast links hname hnode
        · obtain ⟨mode, hmode⟩ := h.directoryAt hend hnode
          have hrest := ih (done ++ [name]) hinner.2 hrestSize hrestLast hnode
          rw [← List.append_assoc] at hmode hrest
          exact .directory hname hmode hrest

end RegistryFront.Files.Disk
