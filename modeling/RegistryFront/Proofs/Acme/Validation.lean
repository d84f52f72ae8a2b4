import RegistryFront.Proofs.Acme.Preparation

/-!
# The order of a validation

Nothing is announced to the authority before every answer stands, and from the first announcement to
the end of the validation every answer that was announced is there to be found.
-/

namespace RegistryFront.Acme

open Tls (Certified)

variable {σ : Type} {outside : Outside σ}

/-! ## Requests that leave the board alone -/

def Exchange.failure? (exchange : Exchange) : Option ExchangeError :=
  match exchange.answer with
  | .ok _ => none
  | .error cause => some cause

def State.Asks (allowed : Request → Prop) (before after : State σ) : Prop :=
  after.board = before.board ∧ ∃ made, after.exchanges = before.exchanges ++ made ∧
    ∀ exchange ∈ made, allowed exchange.request ∧ exchange.exposure.board = before.board

instance (allowed : Request → Prop) : IsPreorder (State σ) (State.Asks allowed) where
  refl _ := ⟨rfl, [], by simp, by simp⟩
  trans := by
    rintro first second third ⟨hboard, made, hexchanges, hmade⟩ ⟨hboard', more, hexchanges', hmore⟩
    refine ⟨hboard'.trans hboard, made ++ more, by rw [hexchanges', hexchanges, List.append_assoc],
      fun exchange hmem => ?_⟩
    rcases List.mem_append.mp hmem with hmem | hmem
    · exact hmade exchange hmem
    · exact ⟨(hmore exchange hmem).1, (hmore exchange hmem).2.trans hboard⟩

namespace Order

variable (order : Order)

structure Announces (urls : List String) (told : List Exchange) (failure : Option ExchangeError) :
    Prop where
  requests : told.map Exchange.request =
    (urls.take told.length).map (Request.challengeReady order.account)
  outcome : match failure with
    | none => told.length = urls.length ∧ ∀ exchange ∈ told, exchange.failure? = none
    | some cause => ∃ heard failed, told = heard ++ [failed] ∧
        (∀ exchange ∈ heard, exchange.failure? = none) ∧ failed.failure? = some cause

theorem Announces.cons {order : Order} {url : String} {rest : List String} {told : List Exchange}
    {failure : Option ExchangeError} (h : order.Announces rest told failure) {exchange : Exchange}
    (hrequest : exchange.request = .challengeReady order.account url)
    (hheard : exchange.failure? = none) :
    order.Announces (url :: rest) (exchange :: told) failure where
  requests := by simp [hrequest, h.requests]
  outcome := by
    have houtcome := h.outcome
    cases failure with
    | none =>
        dsimp only at houtcome ⊢
        exact ⟨by simp [houtcome.1], by simpa [hheard] using houtcome.2⟩
    | some cause =>
        obtain ⟨heard, failed, hsplit, hbefore, hcause⟩ := houtcome
        exact ⟨exchange :: heard, failed, by simp [hsplit], by simpa [hheard] using hbefore, hcause⟩

end Order

end RegistryFront.Acme
