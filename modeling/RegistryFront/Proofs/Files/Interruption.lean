import RegistryFront.Files.Action

/-!
# Changes that stop

A change may stop before any of its actions, because that one fails or because nobody is left to go
on.  A write that fails may have emptied its file.
-/

namespace RegistryFront.Files

/-- A change of the first disk stops when so many actions are done and leaves the second disk; the
mark says that the next action emptied its file. -/
inductive Stops : Disk → List Action → Nat → Bool → Disk → Prop where
  | here (disk : Disk) (actions : List Action) : Stops disk actions 0 false disk
  | failed {disk after : Disk} {action : Action} {rest : List Action} {cause : FileError}
      (h : action.apply disk = (.error cause, after)) : Stops disk (action :: rest) 0 false after
  | emptied {disk after : Disk} {path : String} {mode : Nat} {content : Bytes} {rest : List Action}
      (h : disk.write path mode [] = .ok after) :
      Stops disk (.write path mode content :: rest) 0 true after
  | later {disk middle after : Disk} {action : Action} {rest : List Action} {done : Nat}
      {cut : Bool}
      (h : action.apply disk = (.ok (), middle)) (hrest : Stops middle rest done cut after) :
      Stops disk (action :: rest) (done + 1) cut after

theorem ok_of_keeping {disk after : Disk} {result : Except FileError Disk}
    (h : keeping disk result = (.ok (), after)) : result = .ok after := by
  cases result with
  | error => cases h
  | ok written => cases h; rfl

theorem stops_of_applyStruck {disk after : Disk} {action : Action} {mishap : Option Mishap}
    {cause : FileError} (h : action.applyStruck disk mishap = (.error cause, after))
    (rest : List Action) : ∃ cut, Stops disk (action :: rest) 0 cut after := by
  cases mishap with
  | none => exact ⟨false, .failed h⟩
  | some mishap =>
      cases mishap with
      | refused =>
          cases h
          exact ⟨false, .here disk _⟩
      | emptied =>
          cases action with
          | write path mode content =>
              simp only [Action.applyStruck, Prod.mk.injEq] at h
              obtain ⟨-, rfl⟩ := h
              cases hwrite : disk.write path mode [] with
              | error => exact ⟨false, .here disk _⟩
              | ok after => exact ⟨true, .emptied hwrite⟩
          | _ =>
              cases h
              exact ⟨false, .here disk _⟩

theorem apply_of_applyStruck {disk after : Disk} {action : Action} {mishap : Option Mishap}
    (h : action.applyStruck disk mishap = (.ok (), after)) :
    action.apply disk = (.ok (), after) := by
  cases mishap with
  | none => exact h
  | some mishap =>
      cases mishap with
      | refused => cases h
      | emptied => cases action <;> cases h

theorem error_of_keeping {disk after : Disk} {result : Except FileError Disk} {cause : FileError}
    (h : keeping disk result = (.error cause, after)) : after = disk := by
  cases result with
  | error => cases h; rfl
  | ok => cases h

theorem Drive.performAll_append (drive : Drive) (actions rest : List Action) :
    drive.performAll (actions ++ rest) =
      match drive.performAll actions with
      | (.ok (), drive) => drive.performAll rest
      | (.error cause, drive) => (.error cause, drive) := by
  induction actions generalizing drive with
  | nil => rfl
  | cons action others ih =>
      rw [List.cons_append, performAll, performAll]
      split
      · exact ih _
      · rfl

theorem Drive.performAll_stops (drive : Drive) (actions : List Action) :
    ((drive.performAll actions).1 = .ok () ∧
      Stops drive.disk actions actions.length false (drive.performAll actions).2.disk) ∨
    ((∃ cause, (drive.performAll actions).1 = .error cause) ∧ ∃ done < actions.length, ∃ cut,
      Stops drive.disk actions done cut (drive.performAll actions).2.disk) := by
  induction actions generalizing drive with
  | nil => exact .inl ⟨rfl, .here ..⟩
  | cons action rest ih =>
      cases hstruck : action.applyStruck drive.disk (drive.mishaps.head?.getD none) with
      | mk result middle =>
          have hperform : drive.perform action = (result, ⟨middle, drive.mishaps.tail⟩) := by
            unfold perform
            rw [hstruck]
          cases result with
          | error cause =>
              obtain ⟨cut, hstops⟩ := stops_of_applyStruck hstruck rest
              simp only [performAll, hperform]
              exact .inr ⟨⟨cause, rfl⟩, 0, by simp, cut, hstops⟩
          | ok =>
              have hlater := apply_of_applyStruck hstruck
              simp only [performAll, hperform]
              rcases ih ⟨middle, drive.mishaps.tail⟩ with
                ⟨hok, hstops⟩ | ⟨herror, done, hdone, cut, hstops⟩
              · exact .inl ⟨hok, .later hlater hstops⟩
              · exact .inr ⟨herror, done + 1, Nat.succ_lt_succ hdone, cut, .later hlater hstops⟩

theorem Drive.stops_of_performAll {drive after : Drive} {actions : List Action}
    (h : drive.performAll actions = (.ok (), after)) :
    Stops drive.disk actions actions.length false after.disk := by
  rcases drive.performAll_stops actions with ⟨-, hstops⟩ | ⟨⟨cause, herror⟩, -⟩ <;> rw [h] at *
  · exact hstops
  · cases herror

end RegistryFront.Files
