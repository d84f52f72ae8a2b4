import RegistryFront.Proofs.Acme.Frame
import RegistryFront.Proofs.Store.Due

/-!
# What a call leaves in the store

Up to the save at its end a call does nothing to the files of its domain.  With the save it writes
the certificate that it returns; when it fails, what it leaves is due if what was there was due.
-/

namespace RegistryFront.Acme

open Time (Instant)

variable {σ α β γ : Type}

/-! ## Runs up to their last step -/

/-- The run fails within the relation, or comes within it to where only the last step is left. -/
def Run.Ends (R : State σ → State σ → Prop) (last : γ → Run σ α) (run : Run σ α) : Prop :=
  ∀ state, ((∃ cause, (run.on state).1 = .error cause) ∧ R state (run.on state).2) ∨
    ∃ value middle, R state middle ∧ run.on state = (last value).on middle

theorem Run.ends_last {R : State σ → State σ → Prop} [IsPreorder (State σ) R] {last : γ → Run σ α}
    (value : γ) : (last value).Ends R last :=
  fun state => .inr ⟨value, state, refl_of R state, rfl⟩

theorem Run.ends_bind {R : State σ → State σ → Prop} [IsPreorder (State σ) R] {last : γ → Run σ α}
    {run : Run σ β} {next : β → Run σ α} (hrun : run.Within R)
    (hnext : ∀ value, (next value).Ends R last) : (run >>= next).Ends R last := by
  intro state
  rw [Run.on_bind]
  have hfirst := hrun state
  rcases hrest : run.on state with ⟨cause | value, middle⟩ <;> rw [hrest] at hfirst
  · exact .inl ⟨⟨cause, rfl⟩, hfirst⟩
  · rcases hnext value middle with ⟨hfails, hthen⟩ | ⟨last, later, hthen, hrun⟩
    · exact .inl ⟨hfails, trans_of R hfirst hthen⟩
    · exact .inr ⟨last, later, trans_of R hfirst hthen, hrun⟩

theorem Run.Ends.within {R : State σ → State σ → Prop} [IsTrans (State σ) R] {last : γ → Run σ α}
    {run : Run σ α} (h : run.Ends R last) (hlast : ∀ value, (last value).Within R) :
    run.Within R := by
  intro state
  obtain ⟨-, hfailed⟩ | ⟨value, middle, hmiddle, hrun⟩ := h state
  · exact hfailed
  · rw [hrun]
    exact trans_of R hmiddle (hlast value middle)

namespace Client

variable (client : Client)

def fetch (outside : Outside σ) (order : Order) (ready : OrderState) : Run σ StoredCertificate := do
  let (key, csr) ← client.makeRequest
  let state ← .ask outside (.finalize order.account ready.finalizeUrl csr)
  let chainPem ← order.pollChain outside state
  .fromState fun state => client.certificateOf chainPem key state.wall

def procure (outside : Outside σ) : Run σ StoredCertificate := do
  .change fun state => { state with posted := [] }
  let account ← client.obtainAccount outside
  let order ← client.newOrder outside account
  let ready ← .always (order.validate outside client.ports) State.withdrawn
  client.fetch outside order ready

def keep (certificate : StoredCertificate) : Run σ StoredCertificate := do
  client.save certificate
  pure certificate

theorem issue_eq (outside : Outside σ) :
    client.issue outside = client.procure outside >>= client.keep := by
  simp only [issue, complete, procure, fetch, bind_assoc]
  rfl

variable {outside : Outside σ}

theorem fetch_within {R : State σ → State σ → Prop} (h : outside.Allows R) (order : Order)
    (ready : OrderState) : (client.fetch outside order ready).Within R := by
  have := h.toIsPreorder
  refine Run.within_bind (client.makeRequest_within h.draw) fun request => ?_
  refine Run.within_bind (h.ask _ _) fun state => ?_
  refine Run.within_bind (order.pollChain_within (h.asking _) state) fun chainPem => ?_
  exact Run.within_fromState _

/-- Up to its save a call stays within what asking, waiting, drawing, keeping the account and all
that is done about challenges stay within. -/
theorem procure_within {R : State σ → State σ → Prop} (h : outside.Allows R)
    (haccount : client.AllowsAccount R)
    (hboard : ∀ (state : State σ) inner board posted responders,
      R state { state with
        outside := inner, board := board, posted := posted, responders := responders }) :
    (client.procure outside).Within R := by
  have := h.toIsPreorder
  have hpost (order : Order) domain challenge responder :
      (order.post domain challenge responder).Within R :=
    order.post_within h.draw (fun state _ _ => hboard state state.outside _ _ state.responders)
      (fun state _ _ => hboard state state.outside _ _ state.responders) domain challenge responder
  have hlisten responder : (Order.listen outside client.ports responder).Within R :=
    Order.listen_within (fun state inner => hboard state inner state.board state.posted) _ responder
  refine Run.within_bind (Run.within_change fun state =>
    hboard state state.outside state.board _ state.responders) fun _ => ?_
  refine Run.within_bind (client.obtainAccount_within (h.asking _) haccount) fun account => ?_
  refine Run.within_bind (client.newOrder_within h account) fun order => ?_
  refine Run.within_bind (Run.within_always
    (order.validate_within (h.asking _) client.ports (hpost order) hlisten) fun state =>
      hboard state state.outside _ state.posted _) fun ready => ?_
  exact client.fetch_within h order ready

theorem issue_ends {R : State σ → State σ → Prop} (h : outside.Allows R)
    (haccount : client.AllowsAccount R)
    (hboard : ∀ (state : State σ) inner board posted responders,
      R state { state with
        outside := inner, board := board, posted := posted, responders := responders }) :
    (client.issue outside).Ends R client.keep := by
  have := h.toIsPreorder
  rw [client.issue_eq outside]
  exact Run.ends_bind (client.procure_within h haccount hboard) Run.ends_last

theorem issue_within {R : State σ → State σ → Prop} (h : outside.Allows R)
    (haccount : client.AllowsAccount R)
    (hboard : ∀ (state : State σ) inner board posted responders,
      R state { state with
        outside := inner, board := board, posted := posted, responders := responders })
    (hsave : ∀ certificate, (client.save certificate).Within R) :
    (client.issue outside).Within R := by
  have := h.toIsPreorder
  refine (client.issue_ends h haccount hboard).within fun certificate => ?_
  exact Run.within_bind (hsave certificate) fun _ => Run.within_pure _

end Client

/-! ## The files of the domain -/

def State.SameShelf (store : Store) (root : Files.Place) (domain : String)
    (before after : State σ) : Prop :=
  store.Keeps root before.drive.disk → store.Keeps root after.drive.disk ∧
    store.shelf after.drive.disk domain = store.shelf before.drive.disk domain

section

variable {store : Store} {root : Files.Place} {domain : String}

theorem State.sameShelf_of_drive {before after : State σ} (h : after.drive = before.drive) :
    State.SameShelf store root domain before after := by
  intro hkeeps
  rw [h]
  exact ⟨hkeeps, rfl⟩

instance : IsPreorder (State σ) (State.SameShelf store root domain) where
  refl _ := State.sameShelf_of_drive rfl
  trans := by
    intro first second third h h' hkeeps
    obtain ⟨hsecond, hshelf⟩ := h hkeeps
    obtain ⟨hthird, hshelf'⟩ := h' hsecond
    exact ⟨hthird, hshelf'.trans hshelf⟩

theorem sameShelf_allowed (outside : Outside σ) :
    outside.Allows (State.SameShelf store root domain) where
  ask _ _ _ := State.sameShelf_of_drive rfl
  draw _ := State.sameShelf_of_drive rfl
  sleep _ _ := State.sameShelf_of_drive rfl

theorem Client.sameShelf_allowsAccount (client : Client) (hdomain : Store.Inner domain) :
    client.AllowsAccount (State.SameShelf (σ := σ) client.store root domain) where
  save _ _ hkeeps := hkeeps.performAll hdomain (Store.elsewhere_saveCredentials _ _)
  keep _ _ := State.sameShelf_of_drive rfl

end

/-! ## A call over what is due -/

/-- What there is for the domain after calls of which the last one had this result, if there was
one: what it returned, or something that is due. -/
def ShelfAfter (last : Option (Except IssueError StoredCertificate)) (shelf : Store.Shelf)
    (now : Instant) (domains : List String) (days : Nat) : Prop :=
  match last with
  | some (.ok certificate) => shelf = Store.Shelf.ofTexts certificate.text
  | _ => shelf.Ordered ∧ shelf.Spent now domains days

theorem ShelfAfter.mono {last : Option (Except IssueError StoredCertificate)} {shelf : Store.Shelf}
    {now later : Instant} {domains : List String} {days : Nat}
    (h : ShelfAfter last shelf now domains days) (hlater : now.notAfter later = true) :
    ShelfAfter last shelf later domains days := by
  unfold ShelfAfter at h ⊢
  split
  · exact h
  · next hnot =>
      split at h
      · next certificate => exact absurd rfl (hnot certificate)
      · exact ⟨h.1, h.2.mono hlater⟩

theorem ShelfAfter.ordered {last : Option (Except IssueError StoredCertificate)}
    {shelf : Store.Shelf} {now : Instant} {domains : List String} {days : Nat}
    (h : ShelfAfter last shelf now domains days) :
    shelf.Ordered := by
  unfold ShelfAfter at h
  split at h
  · subst h
    exact fun _ _ => by simp [Store.Shelf.ofTexts]
  · exact h.1

/-- A call that fails leaves the files of the domain alone, or its save stops on the way. -/
theorem Client.shelf_of_issue (client : Client) (outside : Outside σ) {root : Files.Place}
    {state : State σ} (hkeeps : client.store.Keeps root state.drive.disk)
    (hdomain : Store.Inner client.primaryDomain) :
    let (result, after) := (client.issue outside).on state
    let before := client.store.shelf state.drive.disk client.primaryDomain
    let shelf := client.store.shelf after.drive.disk client.primaryDomain
    client.store.Keeps root after.drive.disk ∧
      ((∃ certificate, result = .ok certificate ∧ shelf = Store.Shelf.ofTexts certificate.text) ∨
      (∃ cause, result = .error cause) ∧ (shelf = before ∨ ∃ certificate, ∃ done < 5, ∃ cut,
        shelf = before.left (Store.saveEntries certificate) done cut)) := by
  have hallows : outside.Allows (State.SameShelf client.store root client.primaryDomain) :=
    sameShelf_allowed outside
  have hends := client.issue_ends hallows (client.sameShelf_allowsAccount hdomain)
    (fun _ _ _ _ _ => State.sameShelf_of_drive rfl) state
  generalize (client.issue outside).on state = issued at hends ⊢
  obtain ⟨result, after⟩ := issued
  rcases hends with ⟨⟨cause, rfl⟩, hsame⟩ | ⟨certificate, middle, hsame, hlast⟩
  · obtain ⟨hafter, hshelf⟩ := hsame hkeeps
    exact ⟨hafter, .inr ⟨⟨cause, rfl⟩, .inl hshelf⟩⟩
  · -- nothing but the save is left, and it is the first to touch these files
    obtain ⟨hmiddle, hshelf⟩ := hsame hkeeps
    have hsave := hmiddle.shelf_after_save hdomain certificate
    rw [hlast]
    simp only [keep, save, Run.on_bind, Run.onDrive, Run.on_of]
    generalize client.store.save middle.drive client.primaryDomain certificate = saved at hsave ⊢
    obtain ⟨result, drive⟩ := saved
    obtain ⟨hafter, ⟨rfl, hwhole⟩ | ⟨⟨cause, rfl⟩, done, hdone, cut, -, hleft⟩⟩ := hsave
    · exact ⟨hafter, .inl ⟨certificate, rfl, hwhole⟩⟩
    · rw [hshelf] at hleft
      exact ⟨hafter, .inr ⟨⟨_, rfl⟩, .inr ⟨certificate, done, hdone, cut, hleft⟩⟩⟩

theorem Client.shelf_after_issue (client : Client) (outside : Outside σ) {root : Files.Place}
    {state : State σ} {now : Instant} (hkeeps : client.store.Keeps root state.drive.disk)
    (hdomain : Store.Inner client.primaryDomain)
    (hordered : (client.store.shelf state.drive.disk client.primaryDomain).Ordered)
    (hspent : (client.store.shelf state.drive.disk client.primaryDomain).Spent now client.domains
      client.renewBeforeDays) :
    let (result, after) := (client.issue outside).on state
    client.store.Keeps root after.drive.disk ∧
      ShelfAfter (some result) (client.store.shelf after.drive.disk client.primaryDomain) now
        client.domains client.renewBeforeDays := by
  have hissue := client.shelf_of_issue outside hkeeps hdomain
  generalize (client.issue outside).on state = issued at hissue ⊢
  obtain ⟨result, after⟩ := issued
  obtain ⟨hafter, ⟨certificate, rfl, hwhole⟩ | ⟨⟨cause, rfl⟩, hfailed⟩⟩ := hissue
  · exact ⟨hafter, hwhole⟩
  · refine ⟨hafter, ?_⟩
    dsimp only [ShelfAfter]
    rcases hfailed with hsame | ⟨certificate, done, hdone, cut, hleft⟩
    · rw [hsame]
      exact ⟨hordered, hspent⟩
    · rw [hleft]
      exact ⟨hordered.left certificate hdone cut, hspent.left certificate hdone cut⟩

end RegistryFront.Acme
