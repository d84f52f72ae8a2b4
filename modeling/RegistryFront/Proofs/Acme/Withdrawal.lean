import RegistryFront.Proofs.Acme.Board
import RegistryFront.Proofs.Acme.Frame

/-!
# What a call leaves on the board

A call puts answers up while it prepares its order and takes them down when the validation is
over.  Nothing else in it touches the board, so that in the end only those entries are gone that
stood under the keys of its own answers, and the answers with them.
-/

namespace RegistryFront.Acme

open Tls (Certified)

variable {σ : Type}

/-! ## Putting up -/

def State.Posts (before after : State σ) : Prop :=
  ∃ postings : List (Posting Certified),
    after.board = before.board.putAll postings ∧
    after.posted = before.posted ++ postings.map Posting.key

def State.SameBoard (before after : State σ) : Prop :=
  after.board = before.board ∧ after.posted = before.posted

theorem State.SameBoard.posts {before after : State σ} (h : before.SameBoard after) :
    before.Posts after :=
  ⟨[], h.1, by simpa using h.2⟩

instance : IsPreorder (State σ) State.SameBoard where
  refl _ := ⟨rfl, rfl⟩
  trans _ _ _ hfirst hsecond := ⟨hsecond.1.trans hfirst.1, hsecond.2.trans hfirst.2⟩

instance : IsPreorder (State σ) State.Posts where
  refl state := (refl_of State.SameBoard state).posts
  trans := by
    rintro first second third ⟨postings, hboard, hposted⟩ ⟨more, hboard', hposted'⟩
    refine ⟨postings ++ more, ?_, ?_⟩
    · rw [hboard', hboard, ChallengeBoard.putAll, ChallengeBoard.putAll, ChallengeBoard.putAll,
        List.foldl_append]
    · rw [hposted', hposted, List.map_append, List.append_assoc]

theorem sameBoard_allowed (outside : Outside σ) : outside.Allows State.SameBoard where
  ask _ _ _ := ⟨rfl, rfl⟩
  draw _ := ⟨rfl, rfl⟩
  sleep _ _ := ⟨rfl, rfl⟩

theorem posts_allowed (outside : Outside σ) : outside.Allows State.Posts where
  ask _ _ _ := State.SameBoard.posts ⟨rfl, rfl⟩
  draw _ := State.SameBoard.posts ⟨rfl, rfl⟩
  sleep _ _ := State.SameBoard.posts ⟨rfl, rfl⟩

theorem Order.post_posts (order : Order) (domain : String) (challenge : Challenge)
    (responder : Responder) :
    (post order domain challenge responder).Within (State.Posts (σ := σ)) := by
  have hdraw : (Run.draw (σ := σ)).Within State.Posts := fun _ => State.SameBoard.posts ⟨rfl, rfl⟩
  exact order.post_within hdraw (fun _ token answer => ⟨[.text token answer], rfl, rfl⟩)
    (fun _ domain certified => ⟨[.certificate domain certified], rfl, rfl⟩) domain challenge
    responder

theorem Order.validate_posts (outside : Outside σ) (order : Order) (ports : Ports) :
    (validate outside order ports).Within State.Posts :=
  order.validate_within ((posts_allowed outside).asking _) ports order.post_posts
    (listen_within (fun _ _ _ => State.SameBoard.posts ⟨rfl, rfl⟩) ports)

/-! ## A whole call -/

namespace Client

variable (client : Client) (outside : Outside σ)

def validating : Run σ OrderState := do
  .change fun state => { state with posted := [] }
  let account ← client.obtainAccount outside
  let order ← client.newOrder outside account
  order.validate outside client.ports

theorem sameBoard_allowsAccount : client.AllowsAccount (State.SameBoard (σ := σ)) where
  save _ _ := ⟨rfl, rfl⟩
  keep _ _ := ⟨rfl, rfl⟩

theorem complete_sameBoard (order : Order) (ready : OrderState) :
    (client.complete outside order ready).Within State.SameBoard :=
  client.complete_within (sameBoard_allowed outside) (fun _ _ => ⟨rfl, rfl⟩) order ready

theorem issue_board (state : State σ) :
    let validated := ((client.validating outside).on state).2
    let after := ((client.issue outside).on state).2
    after.board = validated.board.withdrawAll validated.posted ∧
      after.posted = validated.posted := by
  dsimp only
  have haccount := client.obtainAccount_within ((sameBoard_allowed outside).asking _)
    client.sameBoard_allowsAccount { state with posted := [] }
  have horder (account : Account) := client.newOrder_within (sameBoard_allowed outside) account
  simp only [issue, validating, Run.on_bind, Run.change, Run.on_of, Run.always]
  rcases hobtain : (client.obtainAccount outside).on { state with posted := [] } with
    ⟨_ | account, known⟩ <;> rw [hobtain] at haccount
  · -- without an account there is nothing to take down
    have hposted : known.posted = [] := haccount.2
    simp [hposted, ChallengeBoard.withdrawAll]
  · specialize horder account known
    dsimp only
    rcases hnew : (client.newOrder outside account).on known with ⟨_ | order, ordered⟩ <;>
      rw [hnew] at horder
    · have hposted : ordered.posted = [] := horder.2.trans haccount.2
      simp [hposted, ChallengeBoard.withdrawAll]
    · dsimp only
      rcases (order.validate outside client.ports).on ordered with ⟨_ | ready, validated⟩
      · exact ⟨rfl, rfl⟩
      · have hdone := client.complete_sameBoard outside order ready validated.withdrawn
        dsimp only
        exact ⟨hdone.1, hdone.2⟩

theorem validating_posts (state : State σ) :
    State.Posts { state with posted := [] } ((client.validating outside).on state).2 := by
  have hrun : (client.validating outside).on state =
      (do let account ← client.obtainAccount outside
          let order ← client.newOrder outside account
          order.validate outside client.ports : Run σ OrderState).on { state with posted := [] } :=
    rfl
  rw [hrun]
  refine Run.within_bind (Run.within_of_le (fun _ _ => State.SameBoard.posts)
    (client.obtainAccount_within ((sameBoard_allowed outside).asking _) client.sameBoard_allowsAccount))
    (fun account => ?_) _
  refine Run.within_bind (client.newOrder_within (posts_allowed outside) account) fun order => ?_
  exact order.validate_posts outside client.ports

/-- Whatever the authority and the disk do and wherever a call stops, the board is afterwards what
it was before, without the entries under the keys of the answers that were put up during the call:
these answers stood on the board, one put over the other, when the validation was over.  Where
none of the keys was in use before, nothing on the board has changed. -/
theorem board_after_issue (state : State σ) :
    ∃ postings : List (Posting Certified),
      ((client.validating outside).on state).2.board = state.board.putAll postings ∧
      ((client.issue outside).on state).2.posted = postings.map Posting.key ∧
      ((client.issue outside).on state).2.board = state.board.without (postings.map Posting.key) ∧
      ((∀ posting ∈ postings, state.board.has posting.key = false) →
        ((client.issue outside).on state).2.board = state.board) := by
  obtain ⟨postings, hboard, hposted⟩ := client.validating_posts outside state
  obtain ⟨hafter, hsame⟩ := client.issue_board outside state
  rw [List.nil_append] at hposted
  have hwithout : ((client.issue outside).on state).2.board =
      state.board.without (postings.map Posting.key) := by
    rw [hafter, hboard, hposted, ChallengeBoard.withdrawAll_eq_without]
    exact state.board.without_putAll fun posting hposting => List.mem_map_of_mem hposting
  refine ⟨postings, hboard, hsame.trans hposted, hwithout, fun hnew => ?_⟩
  rw [hwithout]
  refine state.board.without_eq_self fun key hkey => ?_
  obtain ⟨posting, hposting, rfl⟩ := List.mem_map.mp hkey
  exact hnew posting hposting

end Client

end RegistryFront.Acme
