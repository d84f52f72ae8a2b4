import RegistryFront.Acme.Order

/-!
# Putting up and taking down

A board changes by postings, and loses whatever stands under the keys that are taken down.  What had
been there under other keys is there afterwards, whether or not anything was put up in between.
-/

namespace RegistryFront

namespace Table

variable {α β : Type}

theorem ext {first second : Table α β} (h : first.entries = second.entries) : first = second := by
  cases first
  cases second
  simpa using h

variable [DecidableEq α]

def without (table : Table α β) (keys : List α) : Table α β :=
  ⟨table.entries.filter (·.1 ∉ keys), table.keys_nodup.sublist (List.filter_sublist.map _)⟩

@[simp] theorem without_nil (table : Table α β) : table.without [] = table :=
  ext (by simp [without])

theorem without_erase (table : Table α β) (key : α) (keys : List α) :
    (table.erase key).without keys = table.without (key :: keys) := by
  refine ext ?_
  simp [without, erase, List.filter_filter, Bool.and_comm]

theorem without_insert (table : Table α β) {key : α} (value : β) {keys : List α} (h : key ∈ keys) :
    (table.insert key value).without keys = table.without keys := by
  have herase : (table.erase key).without keys = table.without keys := by
    rw [without_erase]
    refine ext (List.filter_congr fun entry _ => ?_)
    by_cases hkey : entry.1 = key <;> simp [hkey, h]
  rw [← herase]
  refine ext ?_
  simp [without, insert, h]

theorem without_eq_self (table : Table α β) {keys : List α}
    (h : ∀ key ∈ keys, table.get? key = none) : table.without keys = table := by
  refine ext (List.filter_eq_self.mpr fun entry hentry => ?_)
  have hnot : entry.1 ∉ keys := by
    intro hkey
    have hnone := List.lookup_eq_none_iff.mp (h entry.1 hkey) entry hentry
    simp at hnone
  simpa using hnot

end Table

namespace Acme

variable {κ : Type}

inductive Posting (κ : Type) where
  | text (token keyAuthorization : String)
  | certificate (domain : String) (certificate : κ)

namespace Posting

def key : Posting κ → Posted
  | .text token _ => .text token
  | .certificate domain _ => .certificate domain

end Posting

def Posted.token? : Posted → Option String
  | .text token => some token
  | .certificate _ => none

def Posted.domain? : Posted → Option String
  | .text _ => none
  | .certificate domain => some (ChallengeBoard.fold domain)

namespace ChallengeBoard

def put (board : ChallengeBoard κ) : Posting κ → ChallengeBoard κ
  | .text token keyAuthorization => board.addText token keyAuthorization
  | .certificate domain certificate => board.addCertificate domain certificate

def putAll (board : ChallengeBoard κ) (postings : List (Posting κ)) : ChallengeBoard κ :=
  postings.foldl put board

def without (board : ChallengeBoard κ) (posted : List Posted) : ChallengeBoard κ :=
  ⟨board.texts.without (posted.filterMap Posted.token?),
    board.certificates.without (posted.filterMap Posted.domain?)⟩

def has (board : ChallengeBoard κ) : Posted → Bool
  | .text token => (board.text? token).isSome
  | .certificate domain => (board.certificate? domain).isSome

theorem withdrawAll_eq_without (board : ChallengeBoard κ) (posted : List Posted) :
    board.withdrawAll posted = board.without posted := by
  induction posted generalizing board with
  | nil => simp [withdrawAll, without]
  | cons first posted ih =>
      have hstep :
          board.withdrawAll (first :: posted) = (board.withdraw first).withdrawAll posted :=
        rfl
      rw [hstep, ih]
      cases first with
      | text token =>
          simp [without, withdraw, removeText, List.filterMap_cons, Posted.token?, Posted.domain?,
            Table.without_erase]
      | certificate domain =>
          simp [without, withdraw, removeCertificate, List.filterMap_cons, Posted.token?,
            Posted.domain?, Table.without_erase]

theorem without_put (board : ChallengeBoard κ) {posting : Posting κ} {posted : List Posted}
    (h : posting.key ∈ posted) : (board.put posting).without posted = board.without posted := by
  cases posting with
  | text token keyAuthorization =>
      have htoken : token ∈ posted.filterMap Posted.token? := List.mem_filterMap.mpr ⟨_, h, rfl⟩
      simp [without, put, addText, Table.without_insert _ _ htoken]
  | certificate domain certificate =>
      have hdomain : fold domain ∈ posted.filterMap Posted.domain? :=
        List.mem_filterMap.mpr ⟨_, h, rfl⟩
      simp [without, put, addCertificate, Table.without_insert _ _ hdomain]

/-- Taking down what was put up leaves what had been there under other keys. -/
theorem without_putAll (board : ChallengeBoard κ) {postings : List (Posting κ)}
    {posted : List Posted} (h : ∀ posting ∈ postings, posting.key ∈ posted) :
    (board.putAll postings).without posted = board.without posted := by
  induction postings generalizing board with
  | nil => rfl
  | cons first postings ih =>
      have hrest : ∀ posting ∈ postings, posting.key ∈ posted := fun posting hposting =>
        h posting (List.mem_cons_of_mem first hposting)
      calc ((board.put first).putAll postings).without posted
          = (board.put first).without posted := ih _ hrest
        _ = board.without posted := board.without_put (h first List.mem_cons_self)

theorem without_eq_self (board : ChallengeBoard κ) {posted : List Posted}
    (h : ∀ key ∈ posted, board.has key = false) : board.without posted = board := by
  have htexts : board.texts.without (posted.filterMap Posted.token?) = board.texts := by
    refine Table.without_eq_self _ fun token htoken => ?_
    obtain ⟨key, hkey, htoken⟩ := List.mem_filterMap.mp htoken
    cases key <;> simp only [Posted.token?, Option.some.injEq, reduceCtorEq] at htoken
    subst htoken
    simpa [has, text?] using h _ hkey
  have hcertificates :
      board.certificates.without (posted.filterMap Posted.domain?) = board.certificates := by
    refine Table.without_eq_self _ fun domain hdomain => ?_
    obtain ⟨key, hkey, hdomain⟩ := List.mem_filterMap.mp hdomain
    cases key <;> simp only [Posted.domain?, Option.some.injEq, reduceCtorEq] at hdomain
    subst hdomain
    simpa [has, certificate?] using h _ hkey
  rw [without, htexts, hcertificates]

end ChallengeBoard

end Acme

end RegistryFront
