import RegistryFront.Proofs.Acme.Calls
import RegistryFront.Proofs.Acme.Restart

/-!
# Clients over one store

Clients for several authorities keep their accounts in one store.  They make their calls one at a
time and are started anew now and then.  Whatever the authorities and the disk do, an account is
asked for only where none is known, what is saved of one is never changed, and an authority is asked
with the account that was saved for it.
-/

namespace RegistryFront.Acme

open Files

variable {σ : Type}

/-! ## What is shared -/

structure Share (store : Store) (client : Nat → Client) : Prop where
  store_eq : ∀ number, (client number).store = store
  apart : ∀ first second,
    Store.Deed.digestStart (client first).url = Store.Deed.digestStart (client second).url →
      (client first).url = (client second).url

structure Scene where
  disk : Disk
  account : Nat → Option Account
  exchanges : List Exchange

structure Scene.Shows (scene : Scene) (number : Nat) (state : State σ) : Prop where
  disk : state.drive.disk = scene.disk
  account : state.account = scene.account number
  exchanges : state.exchanges = scene.exchanges

/-- One of the clients is started, which may fail, or it makes a call. -/
inductive Scene.Step (client : Nat → Client) (scene : Scene) : Scene → Prop
  | started {number : Nat} {drive opened : Drive} {result : Except StoreError Store}
      (hdisk : drive.disk = scene.disk)
      (hopen : Store.openAt (client number).store.basePath drive = (result, opened)) :
      Step client scene
        ⟨opened.disk, Function.update scene.account number none, scene.exchanges⟩
  | called {σ : Type} {outside : Outside σ} {number : Nat} {state after : State σ}
      {result : Except IssueError StoredCertificate} (hshows : scene.Shows number state)
      (hissue : ((client number).issue outside).on state = (result, after)) :
      Step client scene
        ⟨after.drive.disk, Function.update scene.account number after.account, after.exchanges⟩

/-- The text was saved for an account that was registered with the authority. -/
def Saved (url : String) (exchanges : List Exchange) (text : String) : Prop :=
  ∃ account, Registered url exchanges account ∧ text = (Credentials.ofAccount account url).write

theorem Saved.mono {url text : String} {exchanges others : List Exchange}
    (h : Saved url exchanges text) (hothers : exchanges ⊆ others) : Saved url others text := by
  obtain ⟨account, hregistered, htext⟩ := h
  exact ⟨account, hregistered.mono hothers, htext⟩

/-- The account is the one of the credentials that the store has for the authority; these were saved
for it or have been there from the start. -/
def Kept (store : Store) (start : Disk) (url : String) (disk : Disk) (exchanges : List Exchange)
    (account : Account) : Prop :=
  ∃ text, store.loadCredentials disk url = .ok (some text) ∧ Fits text exchanges account ∧
    (Saved url exchanges text ∨ store.loadCredentials start url = .ok (some text))

section

variable {store : Store} {root : Place} {client : Nat → Client} {start disk after : Disk}
  {exchanges others : List Exchange}

theorem Kept.restorable {client : Client} {account : Account}
    (h : Kept store start client.url disk exchanges account) (hstore : client.store = store) :
    client.Restorable disk := by
  obtain ⟨text, hload, ⟨credentials, hread, -, hkey, -⟩, -⟩ := h
  exact ⟨text, credentials, account.key, hstore ▸ hload, hread, hkey⟩

theorem Kept.of_fileLasts {url : String} {account : Account}
    (h : Kept store start url disk exchanges account) (hkeeps : store.Keeps root disk)
    (hafter : store.Keeps root after)
    (hlasts : Disk.FileLasts (Store.accountNode root url) disk after)
    (hothers : exchanges ⊆ others) : Kept store start url after others account := by
  obtain ⟨text, hload, hfits, hsaved⟩ := h
  exact ⟨text, hkeeps.loadCredentials_of_fileLasts hafter hlasts hload, hfits.mono hothers,
    hsaved.imp_left (·.mono hothers)⟩

/-! ## The files -/

structure Sound (store : Store) (root : Place) (client : Nat → Client) (start disk : Disk)
    (exchanges : List Exchange) : Prop where
  rooted : disk.Rooted
  keeps : store.Keeps root disk
  direct : ∀ number, Store.Direct disk (client number).primaryDomain
  saved : ∀ number text, store.loadCredentials disk (client number).url = .ok (some text) →
    text = "" ∨ Saved (client number).url exchanges text ∨
      store.loadCredentials start (client number).url = .ok (some text)

theorem Sound.of_sameFiles (h : Sound store root client start disk exchanges)
    (hextends : Disk.Extends disk after)
    (hsame : ∀ url, Disk.SameFileAt (Store.accountNode root url) disk after)
    (hothers : exchanges ⊆ others) : Sound store root client start after others where
  rooted := hextends.rooted
  keeps := h.keeps.of_extends hextends
  direct number := (h.direct number).of_grows hextends.grows
  saved number text hload := by
    rw [h.keeps.loadCredentials_of_sameFileAt (h.keeps.of_extends hextends) (hsame _)] at hload
    exact (h.saved number text hload).imp_right (·.imp_left (·.mono hothers))

theorem Sound.of_save (hshare : Share store client) {drive : Drive} {number : Nat}
    {account : Account} (h : Sound store root client start drive.disk exchanges)
    (hmissing : store.loadCredentials drive.disk (client number).url = .ok none)
    (hregistered : Registered (client number).url others account) (hothers : exchanges ⊆ others) :
    Sound store root client start
      (store.saveCredentials drive (client number).url
        (Credentials.ofAccount account (client number).url).write).2.disk others := by
  generalize htext : (Credentials.ofAccount account (client number).url).write = text
  have hextends : Disk.Extends drive.disk
      (store.saveCredentials drive (client number).url text).2.disk :=
    Drive.extends_performAll h.rooted (Store.secretActions _ text)
  refine ⟨hextends.rooted, h.keeps.of_extends hextends,
    fun other => (h.direct other).of_grows hextends.grows, fun other found hload => ?_⟩
  by_cases hother :
      Store.Deed.digestStart (client number).url = Store.Deed.digestStart (client other).url
  · rw [← hshare.apart _ _ hother] at hload ⊢
    obtain rfl | rfl := h.keeps.text_of_saveCredentials hmissing rfl hload
    · exact .inr (.inl ⟨account, hregistered, htext.symm⟩)
    · exact .inl rfl
  · have hsame := h.keeps.sameFileAt_saveCredentials hother text
    rw [h.keeps.loadCredentials_of_sameFileAt (h.keeps.of_extends hextends) hsame] at hload
    exact (h.saved other found hload).imp_right (·.imp_left (·.mono hothers))

/-! ## One call -/

variable {outside : Outside σ} {number : Nat} {state obtained : State σ}
  {outcome : Except IssueError StoredCertificate × State σ} {found : Except IssueError Account}
  {account : Account}

theorem Sound.after_obtaining (hshare : Share store client)
    (h : Sound store root client start state.drive.disk state.exchanges)
    (hcall : (client number).Call outside state outcome found obtained) :
    Sound store root client start obtained.drive.disk obtained.exchanges ∧
      ∀ url, Disk.FileLasts (Store.accountNode root url) state.drive.disk obtained.drive.disk := by
  have hgrown := hcall.subset_obtained
  obtain hsame | ⟨account, hregistered, hmissing, hsave⟩ := hcall.obtains.saves
  · dsimp only at hsame
    rw [hsame]
    exact ⟨h.of_sameFiles h.rooted.extends_refl (fun _ => refl state.drive.disk) hgrown,
      fun _ => refl state.drive.disk⟩
  · dsimp only at hregistered hmissing hsave
    rw [hshare.store_eq] at hmissing hsave
    rw [← hsave]
    exact ⟨h.of_save hshare hmissing hregistered hgrown,
      fun url => h.keeps.fileLasts_saveCredentials h.rooted hmissing url _⟩

theorem Sound.after_call (hshare : Share store client)
    (h : Sound store root client start obtained.drive.disk obtained.exchanges)
    (hcall : (client number).Call outside state outcome found obtained) :
    Sound store root client start outcome.2.drive.disk outcome.2.exchanges ∧
      ∀ url, Disk.SameFileAt (Store.accountNode root url) obtained.drive.disk
        outcome.2.drive.disk := by
  have hgrown := hcall.obtained_subset
  obtain hsame | ⟨certificate, hsave⟩ := hcall.saves
  · rw [hsame]
    exact ⟨h.of_sameFiles h.rooted.extends_refl (fun _ => refl obtained.drive.disk) hgrown,
      fun _ => refl obtained.drive.disk⟩
  · rw [hshare.store_eq] at hsave
    rw [← hsave]
    have hsame := h.keeps.sameFileAt_save h.rooted (h.direct number) certificate
    exact ⟨h.of_sameFiles (Drive.extends_performAll h.rooted (store.saveActions _ certificate)) hsame
      hgrown, hsame⟩

theorem Sound.kept (hshare : Share store client)
    (h : Sound store root client start state.drive.disk state.exchanges)
    (hkept : ∀ account, state.account = some account →
      Kept store start (client number).url state.drive.disk state.exchanges account)
    (hcall : (client number).Call outside state outcome (.ok account) obtained) :
    Kept store start (client number).url obtained.drive.disk obtained.exchanges account := by
  have hgrown := hcall.subset_obtained
  obtain ⟨haccount, rfl⟩ | ⟨text, hload, hfits, hdrive⟩ | ⟨hregistered, hcurve, hsave⟩ :=
    hcall.obtains.of_ok
  · exact hkept account haccount
  · dsimp only at hload hdrive
    rw [hshare.store_eq] at hload
    rw [hdrive]
    refine ⟨text, hload, hfits, ?_⟩
    obtain hempty | hsaved := h.saved number text hload
    · exact absurd hempty hfits.ne_empty
    · exact hsaved.imp_left (·.mono hgrown)
  · dsimp only at hsave
    rw [hshare.store_eq] at hsave
    have hview := h.keeps.account_of_saveCredentials hsave
    exact ⟨_, Store.loadCredentials_eq_some_iff_view.mpr hview, hregistered.fits hcurve,
      .inl ⟨account, hregistered, rfl⟩⟩

/-! ## Scenes -/

structure Scene.Good (store : Store) (root : Place) (client : Nat → Client) (start : Disk)
    (scene : Scene) : Prop where
  sound : Sound store root client start scene.disk scene.exchanges
  kept : ∀ number account, scene.account number = some account →
    Kept store start (client number).url scene.disk scene.exchanges account

theorem Scene.Good.known {scene : Scene} (h : scene.Good store root client start)
    (hshows : scene.Shows number state) (account : Account)
    (haccount : state.account = some account) :
    Kept store start (client number).url state.drive.disk state.exchanges account := by
  rw [hshows.disk, hshows.exchanges]
  exact h.kept number account (hshows.account ▸ haccount)

theorem Scene.Good.update {scene : Scene} (h : scene.Good store root client start)
    (hafter : Sound store root client start after others)
    (hlasts : ∀ url, Disk.FileLasts (Store.accountNode root url) scene.disk after)
    (hothers : scene.exchanges ⊆ others) {account : Option Account}
    (hkept : ∀ found, account = some found →
      Kept store start (client number).url after others found) :
    (Scene.mk after (Function.update scene.account number account) others).Good store root client
      start := by
  refine ⟨hafter, fun other found hfound => ?_⟩
  dsimp only at hfound ⊢
  by_cases hother : other = number
  · subst hother
    rw [Function.update_self] at hfound
    exact hkept found hfound
  · rw [Function.update_of_ne hother] at hfound
    exact (h.kept other found hfound).of_fileLasts h.sound.keeps hafter.keeps (hlasts _) hothers

theorem Scene.Good.started (hshare : Share store client) {scene : Scene}
    (h : scene.Good store root client start) {drive opened : Drive}
    {result : Except StoreError Store} (hdisk : drive.disk = scene.disk)
    (hopen : Store.openAt (client number).store.basePath drive = (result, opened)) :
    (Scene.mk opened.disk (Function.update scene.account number none) scene.exchanges).Good
        store root client start ∧
      ∀ url, Disk.FileLasts (Store.accountNode root url) scene.disk opened.disk := by
  have hsound := h.sound
  rw [← hdisk] at hsound
  rw [hshare.store_eq] at hopen
  rw [← Store.performAll_of_openAt hopen]
  have hextends := Drive.extends_performAll hsound.rooted store.openActions
  have hsame := hsound.keeps.sameFileAt_opening hsound.rooted
  have hlasts (url : String) : Disk.FileLasts (Store.accountNode root url) scene.disk
      (drive.performAll store.openActions).2.disk := hdisk ▸ (hsame url).lasts
  have hopened := hsound.of_sameFiles hextends hsame (List.Subset.refl _)
  exact ⟨h.update hopened hlasts (List.Subset.refl _) (by simp), hlasts⟩

theorem Scene.Good.called (hshare : Share store client) {scene : Scene}
    (h : scene.Good store root client start) (hshows : scene.Shows number state)
    (hcall : (client number).Call outside state outcome found obtained) :
    (Scene.mk outcome.2.drive.disk (Function.update scene.account number outcome.2.account)
        outcome.2.exchanges).Good store root client start ∧
      ∀ url, Disk.FileLasts (Store.accountNode root url) scene.disk outcome.2.drive.disk := by
  have hsound := h.sound
  rw [← hshows.disk, ← hshows.exchanges] at hsound
  obtain ⟨hobtained, hfirst⟩ := hsound.after_obtaining hshare hcall
  obtain ⟨hafter, hsecond⟩ := hobtained.after_call hshare hcall
  have hlasts (url : String) : Disk.FileLasts (Store.accountNode root url) scene.disk
      outcome.2.drive.disk :=
    hshows.disk ▸ IsTrans.trans _ _ _ (hfirst url) (hsecond url).lasts
  have hgrown : scene.exchanges ⊆ outcome.2.exchanges :=
    hshows.exchanges ▸ List.Subset.trans hcall.subset_obtained hcall.obtained_subset
  refine ⟨h.update hafter hlasts hgrown fun account haccount => ?_, hlasts⟩
  have hfound : found.toOption = some account := by
    rw [← hcall.obtains.account_eq, ← hcall.remembered, haccount]
  cases found with
  | error => cases hfound
  | ok =>
      cases hfound
      exact (hsound.kept hshare (h.known hshows) hcall).of_fileLasts hobtained.keeps hafter.keeps
        (hsecond _).lasts hcall.obtained_subset

theorem Scene.Good.step (hshare : Share store client) {scene next : Scene}
    (h : scene.Good store root client start) (hstep : Scene.Step client scene next) :
    next.Good store root client start ∧
      ∀ url, Disk.FileLasts (Store.accountNode root url) scene.disk next.disk := by
  cases hstep with
  | started hdisk hopen => exact h.started hshare hdisk hopen
  | @called _ outside number state after result hshows hissue =>
      obtain ⟨found, obtained, hcall⟩ := (client number).call_of_issue outside state
      rw [hissue] at hcall
      exact h.called hshare hshows hcall

theorem Scene.Good.run (hshare : Share store client) {scene later : Scene}
    (h : scene.Good store root client start)
    (hreached : Relation.ReflTransGen (Scene.Step client) scene later) :
    later.Good store root client start ∧
      ∀ url, Disk.FileLasts (Store.accountNode root url) scene.disk later.disk := by
  induction hreached with
  | refl => exact ⟨h, fun _ => refl scene.disk⟩
  | tail _ hstep ih =>
      obtain ⟨hgood, hlasts⟩ := ih
      obtain ⟨hnext, hlast⟩ := hgood.step hshare hstep
      exact ⟨hnext, fun url => IsTrans.trans _ _ _ (hlasts url) (hlast url)⟩

structure Client.Faithful (client : Client) (outside : Outside σ) (start : Disk)
    (state after : State σ) (result : Except IssueError StoredCertificate) : Prop where
  /-- A file that holds no credentials that can be used ends the call, and is left alone. -/
  unusable : state.drive.disk.pathExists (client.store.accountPath client.url) = true →
    ¬ client.Restorable state.drive.disk →
      (∃ cause, result = .error cause) ∧ after.exchanges = state.exchanges ∧
        after.drive = state.drive
  /-- An account is remembered when it was come by, and only then; then it is come by again. -/
  remembers : ∀ found obtained,
    (client.obtainAccount outside).on { state with posted := [] } = (found, obtained) →
      after.account = found.toOption ∧
        ∀ account, state.account = some account → found = .ok account
  /-- A new account is asked for right after the directory has answered, at the address that it
  answered with.  At this moment no account is remembered, and there is no file for one. -/
  registers : ∀ before exchange later endpoints key contact,
    after.exchanges = state.exchanges ++ (before ++ exchange :: later) →
    exchange.request = .newAccount endpoints key contact →
      ∃ directed, client.Directed outside { state with posted := [] } endpoints directed ∧
        directed.exchanges = state.exchanges ++ before ∧ directed.account = none ∧
        directed.drive.disk.pathExists (client.store.accountPath client.url) = false
  /-- What is asked for with an account is asked for with the one that was come by before, and that
  is kept for the authority. -/
  uses : ∀ before exchange later account,
    after.exchanges = state.exchanges ++ (before ++ exchange :: later) →
    exchange.request.account? = some account →
      ∃ obtained,
        (client.obtainAccount outside).on { state with posted := [] } = (.ok account, obtained) ∧
        obtained.exchanges <+: state.exchanges ++ before ∧
        Kept client.store start client.url obtained.drive.disk obtained.exchanges account

theorem Scene.Good.faithful (hshare : Share store client) {scene : Scene}
    (h : scene.Good store root client start) (hshows : scene.Shows number state)
    (hcall : (client number).Call outside state outcome found obtained) :
    (client number).Faithful outside start state outcome.2 outcome.1 := by
  have hknown := h.known hshows
  have hsound := h.sound
  rw [← hshows.disk, ← hshows.exchanges] at hsound
  refine ⟨fun hfile hunusable => ?_, ?_, ?_, ?_⟩
  · have hnone : state.account = none := by
      refine Option.eq_none_iff_forall_ne_some.mpr fun account haccount => hunusable ?_
      exact (hknown account haccount).restorable (hshare.store_eq number)
    obtain ⟨cause, rfl⟩ := hcall.of_unusable hnone hfile hunusable
    exact ⟨⟨cause, rfl⟩, rfl, rfl⟩
  · rintro found' obtained' hcomes
    cases hcall.comes_by.symm.trans hcomes
    refine ⟨hcall.remembered.trans hcall.obtains.account_eq, fun account haccount => ?_⟩
    exact congrArg Prod.fst (hcall.obtains.of_remembered haccount)
  · intro before exchange later endpoints key contact hmade hrequest
    obtain ⟨hnone, hmissing, directed, hdirected, hbefore⟩ := hcall.directed hmade hrequest
    refine ⟨directed, hdirected, hbefore, hdirected.asked.remembered.trans hnone, ?_⟩
    rw [hdirected.asked.drive]
    exact Store.loadCredentials_eq_none_iff.mp hmissing
  · intro before exchange later account hmade hrequest
    obtain ⟨rfl, hprefix⟩ := hcall.found_eq hmade hrequest
    refine ⟨obtained, hcall.comes_by, hprefix, ?_⟩
    rw [hshare.store_eq]
    exact hsound.kept hshare hknown hcall

/-- Clients that begin without accounts, over one store, make calls one at a time and are started
anew in any order, whatever the authorities and the disk do.  A file of an account is in all later
scenes what it was; what a client remembers is what is kept for its authority; and each call is
faithful to that.  The disk fails in what changes it; what is there is seen, and a file that is there
can be read. -/
theorem accounts_of_calls (hshare : Share store client) {first scene : Scene}
    (hrooted : first.disk.Rooted) (hkeeps : store.Keeps root first.disk)
    (hdirect : ∀ number, Store.Direct first.disk (client number).primaryDomain)
    (hnone : ∀ number, first.account number = none)
    (hreached : Relation.ReflTransGen (Scene.Step client) first scene) :
    (∀ later, Relation.ReflTransGen (Scene.Step client) scene later →
      ∀ url mode content,
        scene.disk.node? (Store.accountNode root url) = some (.file mode content) →
          later.disk.node? (Store.accountNode root url) = some (.file mode content)) ∧
    (∀ number account, scene.account number = some account →
      Kept store first.disk (client number).url scene.disk scene.exchanges account) ∧
    ∀ {σ : Type} (outside : Outside σ) (number : Nat) (state after : State σ)
      (result : Except IssueError StoredCertificate), scene.Shows number state →
      ((client number).issue outside).on state = (result, after) →
        (client number).Faithful outside first.disk state after result := by
  have hfirst : first.Good store root client first.disk :=
    ⟨⟨hrooted, hkeeps, hdirect, fun _ _ hload => .inr (.inr hload)⟩, fun number account haccount => by
      simp [hnone number] at haccount⟩
  obtain ⟨hgood, -⟩ := hfirst.run hshare hreached
  refine ⟨fun later hlater => (hgood.run hshare hlater).2, hgood.kept, ?_⟩
  intro σ outside number state after result hshows hissue
  obtain ⟨found, obtained, hcall⟩ := (client number).call_of_issue outside state
  rw [hissue] at hcall
  exact hgood.faithful hshare hshows hcall

end

/-! ### Two authorities -/

namespace FirstCertificate

def clients : Nat → Client
  | 0 => client
  | _ + 1 => successor

theorem share_clients : Share Store.acme clients where
  store_eq
    | 0 => rfl
    | _ + 1 => rfl
  apart := by
    have hother : Store.Deed.digestStart client.url ≠ Store.Deed.digestStart successor.url := by
      decide +kernel
    rintro (_ | _) (_ | _) hdigest
    · rfl
    · exact absurd hdigest hother
    · exact absurd hdigest.symm hother
    · rfl

def beginning : Scene := ⟨Store.openAcme [], fun _ => none, []⟩

theorem accounts_of_first_call :
    (Share Store.acme clients ∧ beginning.disk.Rooted ∧ Store.acme.Keeps ["acme"] beginning.disk ∧
      (∀ number, Store.Direct beginning.disk (clients number).primaryDomain) ∧
      (∀ number, beginning.account number = none)) ∧
    ∃ result after, (client.issue willing).on (begun (.ofSeed [])) = (result, after) ∧
      after.account = some (account (.ofSeed [])) ∧
      Kept Store.acme beginning.disk client.url after.drive.disk after.exchanges
        (account (.ofSeed [])) := by
  have hrooted : beginning.disk.Rooted := Store.extends_openAcme.rooted
  have hkeeps : Store.acme.Keeps ["acme"] beginning.disk := Store.keeps_openAcme
  have hdirect (number : Nat) : Store.Direct beginning.disk (clients number).primaryDomain := by
    cases number <;> exact .inl inner_primaryDomain
  have hnone (number : Nat) : beginning.account number = none := rfl
  have hshows : beginning.Shows 0 (begun (.ofSeed [])) := ⟨rfl, rfl, rfl⟩
  rcases hissue : (client.issue willing).on (begun (.ofSeed [])) with ⟨result, after⟩
  have hcalled : ((clients 0).issue willing).on (begun (.ofSeed [])) = (result, after) := hissue
  obtain ⟨-, -, hfaithful⟩ :=
    accounts_of_calls share_clients hrooted hkeeps hdirect hnone Relation.ReflTransGen.refl
  have hremembers := (hfaithful willing 0 _ _ _ hshows hcalled).remembers
  have haccount : after.account = some (account (.ofSeed [])) :=
    (hremembers _ _ (obtainAccount_on (.ofSeed []))).1
  obtain ⟨-, hkept, -⟩ := accounts_of_calls share_clients hrooted hkeeps hdirect hnone
    (.single (.called hshows hcalled))
  exact ⟨⟨share_clients, hrooted, hkeeps, hdirect, hnone⟩, result, after, rfl, haccount,
    hkept 0 _ haccount⟩

end FirstCertificate

end RegistryFront.Acme
