import Mathlib.Data.List.TakeWhile
import RegistryFront.Acme.HttpAnswer
import RegistryFront.Proofs.Acme.History

/-!
# What a request over HTTP gets, told from what has happened

A request finds a text exactly when it asks for the path of a token under which that text was put up
last and not taken down since.  Everything else is not found, and asking changes nothing.
-/

namespace RegistryFront.Acme

/-! ## The path of a target -/

namespace HttpRequest

structure IsPath (path : String) : Prop where
  slash : path.toList.head? = some '/'
  plain : ∀ c ∈ path.toList, c ≠ '?' ∧ c ≠ '#'

def IsTail (tail : String) : Prop := ∀ c ∈ tail.toList.head?, c = '?' ∨ c = '#'

structure IsOrigin (scheme authority : String) : Prop where
  scheme : ∀ c ∈ scheme.toList, c ≠ '/' ∧ c ≠ '?'
  authority : ∀ c ∈ authority.toList, c ≠ '/' ∧ c ≠ '?' ∧ c ≠ '#'

/-- The path in the target of a request.  A whole address without one has the shortest path. -/
inductive HasPath : (target path : String) → Prop where
  | alone {path tail : String} (hpath : IsPath path) (htail : IsTail tail) :
      HasPath (path ++ tail) path
  | whole {scheme authority path tail : String} (horigin : IsOrigin scheme authority)
      (hpath : IsPath path) (htail : IsTail tail) :
      HasPath (scheme ++ "://" ++ authority ++ path ++ tail) path
  | missing {scheme authority tail : String} (horigin : IsOrigin scheme authority)
      (htail : IsTail tail) : HasPath (scheme ++ "://" ++ authority ++ tail) "/"

theorem afterScheme?_eq_some_iff {text rest : List Char} :
    afterScheme? text = some rest ↔
      ∃ scheme, (∀ c ∈ scheme, c ≠ '/' ∧ c ≠ '?') ∧ text = scheme ++ ':' :: '/' :: '/' :: rest := by
  constructor
  · intro h
    induction text using afterScheme?.induct with
    | case1 => cases h
    | case2 found =>
        rw [afterScheme?, Option.some.injEq] at h
        exact ⟨[], by simp, by rw [h, List.nil_append]⟩
    | case3 => cases h
    | case4 => cases h
    | case5 c text hmark hslash hquery ih =>
        rw [afterScheme?.eq_5 c text hmark hslash hquery] at h
        obtain ⟨scheme, hscheme, rfl⟩ := ih h
        exact ⟨c :: scheme, List.forall_mem_cons.mpr ⟨⟨hslash, hquery⟩, hscheme⟩, rfl⟩
  · rintro ⟨scheme, hscheme, rfl⟩
    induction scheme with
    | nil => rfl
    | cons c scheme ih =>
        obtain ⟨⟨hslash, hquery⟩, hrest⟩ := List.forall_mem_cons.mp hscheme
        have hmark : ∀ others, c = ':' →
            scheme ++ ':' :: '/' :: '/' :: rest ≠ '/' :: '/' :: others := by
          intro others _ heq
          cases scheme with
          | nil => simp at heq
          | cons d scheme => exact (hrest d List.mem_cons_self).1 (List.cons.inj heq).1
        rw [List.cons_append, afterScheme?.eq_5 c _ hmark hslash hquery, ih hrest]

theorem endPath_append {path tail : String} (hpath : ∀ c ∈ path.toList, c ≠ '?' ∧ c ≠ '#')
    (htail : IsTail tail) : endPath (path.toList ++ tail.toList) = path.toList := by
  have hend : tail.toList.takeWhile (fun c => c ≠ '?' && c ≠ '#') = [] := by
    cases htext : tail.toList with
    | nil => rfl
    | cons c rest =>
        have hc : c = '?' ∨ c = '#' := htail c (by simp [htext])
        rcases hc with rfl | rfl <;> rfl
  rw [endPath, List.takeWhile_append_of_pos (by simpa using hpath), hend, List.append_nil]

theorem not_of_mem_head?_dropWhile {p : Char → Bool} {text : List Char} {c : Char}
    (h : c ∈ (text.dropWhile p).head?) : p c = false := by
  have hhead := List.head?_dropWhile_not p text
  rwa [h] at hhead

theorem exists_endPath_append (text : String) :
    ∃ tail, IsTail tail ∧ text = String.ofList (endPath text.toList) ++ tail := by
  refine ⟨String.ofList (text.toList.dropWhile fun c => c ≠ '?' && c ≠ '#'), ?_, ?_⟩
  · intro c hc
    rw [String.toList_ofList] at hc
    simpa only [Bool.and_eq_false_iff, decide_eq_false_iff_not, not_not] using
      not_of_mem_head?_dropWhile hc
  · rw [endPath, ← String.ofList_append, List.takeWhile_append_dropWhile, String.ofList_toList]

theorem plain_endPath {text : List Char} {c : Char} (h : c ∈ endPath text) : c ≠ '?' ∧ c ≠ '#' := by
  simpa using List.mem_takeWhile_imp h

theorem dropWhile_authority {authority : List Char} {rest : List Char}
    (hauthority : ∀ c ∈ authority, c ≠ '/' ∧ c ≠ '?' ∧ c ≠ '#')
    (hrest : ∀ c ∈ rest.head?, c = '/' ∨ c = '?' ∨ c = '#') :
    (authority ++ rest).dropWhile (fun c => c ≠ '/' && c ≠ '?' && c ≠ '#') = rest := by
  rw [List.dropWhile_append_of_pos (by simpa [and_assoc] using hauthority)]
  cases rest with
  | nil => rfl
  | cons c rest =>
      have hc := hrest c rfl
      rcases hc with rfl | rfl | rfl <;> rfl

section

variable {request : HttpRequest}

theorem path_of_origin {scheme authority rest : String} (horigin : IsOrigin scheme authority)
    (hrest : ∀ c ∈ rest.toList.head?, c = '/' ∨ c = '?' ∨ c = '#')
    (htarget : request.target = scheme ++ "://" ++ authority ++ rest) :
    request.path = if endPath rest.toList = [] then "/" else String.ofList (endPath rest.toList) := by
  have hscheme : afterScheme? request.target.toList =
      some (authority.toList ++ rest.toList) := by
    refine afterScheme?_eq_some_iff.mpr ⟨scheme.toList, horigin.scheme, ?_⟩
    simp [htarget]
  rw [path, hscheme]
  simp only [dropWhile_authority horigin.authority hrest]

theorem path_of_hasPath {path : String} (h : HasPath request.target path) :
    request.path = path := by
  generalize htarget : request.target = target at h
  cases h with
  | @alone _ tail hpath htail =>
      have hscheme : afterScheme? request.target.toList = none := by
        obtain ⟨rest, hrest⟩ := List.head?_eq_some_iff.mp hpath.slash
        rw [htarget, String.toList_append, hrest]
        rfl
      rw [HttpRequest.path, hscheme, htarget, String.toList_append,
        endPath_append hpath.plain htail, String.ofList_toList]
  | @whole scheme authority _ tail horigin hpath htail =>
      have hrest : ∀ c ∈ (path ++ tail).toList.head?, c = '/' ∨ c = '?' ∨ c = '#' := by
        obtain ⟨rest, hrest⟩ := List.head?_eq_some_iff.mp hpath.slash
        simp [hrest]
      have hne : path.toList ≠ [] := by
        intro hnil
        simpa [hnil] using hpath.slash
      rw [path_of_origin horigin hrest (by rw [htarget, String.append_assoc]),
        String.toList_append, endPath_append hpath.plain htail, if_neg hne, String.ofList_toList]
  | @missing scheme authority tail horigin htail =>
      have hrest : ∀ c ∈ tail.toList.head?, c = '/' ∨ c = '?' ∨ c = '#' :=
        fun c hc => .inr (htail c hc)
      have hnil : endPath tail.toList = [] := by
        simpa using @endPath_append "" tail (by simp) htail
      rw [path_of_origin horigin hrest htarget, if_pos hnil]

theorem exists_origin {target : String} {behind : List Char}
    (h : afterScheme? target.toList = some behind) :
    ∃ scheme authority rest, IsOrigin scheme authority ∧
      (∀ c ∈ rest.toList.head?, c = '/' ∨ c = '?' ∨ c = '#') ∧
      target = scheme ++ "://" ++ authority ++ rest := by
  obtain ⟨scheme, hscheme, hsplit⟩ := afterScheme?_eq_some_iff.mp h
  let inside : Char → Bool := fun c => c ≠ '/' && c ≠ '?' && c ≠ '#'
  refine ⟨.ofList scheme, .ofList (behind.takeWhile inside), .ofList (behind.dropWhile inside),
    ⟨by simpa using hscheme, ?_⟩, ?_, ?_⟩
  · intro c hc
    rw [String.toList_ofList] at hc
    simpa [inside, and_assoc] using List.mem_takeWhile_imp hc
  · intro c hc
    rw [String.toList_ofList] at hc
    simpa only [inside, Bool.and_eq_false_iff, decide_eq_false_iff_not, not_not, or_assoc] using
      not_of_mem_head?_dropWhile hc
  · rw [← String.toList_inj, hsplit]
    simp [List.takeWhile_append_dropWhile]

theorem hasPath_of_slash (h : request.path.toList.head? = some '/') :
    HasPath request.target request.path := by
  have hpath : ∀ text, request.path = String.ofList (endPath text) → IsPath request.path := by
    intro text hpath
    refine ⟨h, fun c hc => ?_⟩
    rw [hpath, String.toList_ofList] at hc
    exact plain_endPath hc
  cases hscheme : afterScheme? request.target.toList with
  | none =>
      have hwhole : request.path = String.ofList (endPath request.target.toList) := by
        rw [path, hscheme]
      obtain ⟨tail, htail, hsplit⟩ := exists_endPath_append request.target
      rw [← hwhole] at hsplit
      rw [hsplit]
      exact .alone (hpath _ hwhole) htail
  | some behind =>
      obtain ⟨scheme, authority, rest, horigin, hrest, htarget⟩ := exists_origin hscheme
      obtain ⟨tail, htail, hsplit⟩ := exists_endPath_append rest
      have hwhole := path_of_origin horigin hrest htarget
      split at hwhole
      · next hnil =>
          rw [hnil, String.ofList_nil, String.empty_append] at hsplit
          rw [hwhole, htarget, hsplit]
          exact .missing horigin htail
      · rw [← hwhole] at hsplit
        rw [htarget, hsplit, ← String.append_assoc]
        exact .whole horigin (hpath _ hwhole) htail

end

/-- The request looks, in one way or the other, at the path of a token. -/
structure Fetches (request : HttpRequest) (token : String) : Prop where
  method : request.method = "GET" ∨ request.method = "HEAD"
  path : HasPath request.target ("/.well-known/acme-challenge/" ++ token)

end HttpRequest

/-! ## The answer -/

theorem tokenOfPath?_eq_some_iff {path token : String} :
    tokenOfPath? path = some token ↔ path = challengePath ++ token := by
  unfold tokenOfPath?
  constructor
  · intro h
    split at h
    · next hprefix =>
        obtain ⟨rest, hrest⟩ := List.isPrefixOf_iff_prefix.mp hprefix
        have htoken : String.ofList (path.toList.drop challengePath.length) = token :=
          Option.some.inj h
        rw [← hrest, ← String.length_toList, List.drop_left] at htoken
        rw [← String.toList_inj, ← hrest, ← htoken, String.toList_append, String.toList_ofList]
    · cases h
  · rintro rfl
    have hprefix : challengePath.toList.isPrefixOf (challengePath ++ token).toList = true :=
      List.isPrefixOf_iff_prefix.mpr ⟨token.toList, by rw [String.toList_append]⟩
    rw [if_pos hprefix, String.toList_append, ← String.length_toList, List.drop_left,
      String.ofList_toList]

theorem challengeText?_eq_some_iff {κ : Type} {board : ChallengeBoard κ} {request : HttpRequest}
    {text : String} :
    challengeText? board request = some text ↔
      ∃ token, request.Fetches token ∧ board.text? token = some text := by
  have hslash : ∀ token, (challengePath ++ token).toList.head? = some '/' := by
    intro token
    rw [String.toList_append]
    rfl
  unfold challengeText?
  constructor
  · intro h
    split at h
    · next hmethod =>
        obtain ⟨token, htoken, htext⟩ := Option.bind_eq_some_iff.mp h
        have hpath := tokenOfPath?_eq_some_iff.mp htoken
        refine ⟨token, ⟨hmethod, ?_⟩, htext⟩
        have hhas : HttpRequest.HasPath request.target request.path :=
          HttpRequest.hasPath_of_slash (by rw [hpath, hslash])
        rwa [hpath] at hhas
    · cases h
  · rintro ⟨token, ⟨hmethod, hpath⟩, htext⟩
    have htoken := tokenOfPath?_eq_some_iff.mpr (HttpRequest.path_of_hasPath hpath)
    rw [if_pos hmethod, htoken, Option.bind_some, htext]

theorem answer_eq_found_iff {κ : Type} {board : ChallengeBoard κ} {request : HttpRequest}
    {text : String} :
    answer board request = .found text ↔ challengeText? board request = some text := by
  unfold answer
  cases challengeText? board request with
  | none => simp [HttpResponse.notFound, HttpResponse.found]
  | some other => simp [HttpResponse.found]

theorem answer_eq_notFound_iff {κ : Type} {board : ChallengeBoard κ} {request : HttpRequest} :
    answer board request = .notFound ↔ challengeText? board request = none := by
  unfold answer
  cases challengeText? board request with
  | none => simp
  | some text => simp [HttpResponse.notFound, HttpResponse.found]

/-! ## Requests among changes -/

inductive Event where
  | changed (change : Change)
  | asked (request : HttpRequest)

def Event.change? : Event → Option Change
  | .changed change => some change
  | .asked _ => none

namespace Front

def attend (front : Front) : Event → Front × Option HttpResponse
  | .changed change => (front.apply change, none)
  | .asked request => (front, some (answer front.board request))

def attendAll (front : Front) : List Event → Front × List HttpResponse
  | [] => (front, [])
  | event :: rest =>
      let (next, response?) := front.attend event
      let (last, responses) := next.attendAll rest
      (last, response?.toList ++ responses)

theorem attendAll_append (front : Front) (events later : List Event) :
    front.attendAll (events ++ later) =
      let (next, responses) := front.attendAll events
      let (last, others) := next.attendAll later
      (last, responses ++ others) := by
  induction events generalizing front with
  | nil => rfl
  | cons event events ih => simp [attendAll, ih]

theorem attendAll_fst (front : Front) (events : List Event) :
    (front.attendAll events).1 = (events.filterMap Event.change?).foldl apply front := by
  induction events generalizing front with
  | nil => rfl
  | cons event events ih => cases event <;> exact ih _

/-- Whatever has happened, a request finds a text if it fetches a token for which that text is
pending, and nothing otherwise.  It leaves behind what there was, and the later answers are those that
would have been given without it. -/
theorem answers_to_requests (events later : List Event) (request : HttpRequest) :
    let changes := events.filterMap Event.change?
    let last := after (changes ++ later.filterMap Event.change?)
    let responses := (fresh.attendAll events).2
    ∃ response others,
      (∀ text, response = ⟨200, some "text/plain", text⟩ ↔
        ∃ token, request.Fetches token ∧ PendingText changes token text) ∧
      (response = ⟨404, none, ""⟩ ↔
        ∀ token text, request.Fetches token → ¬ PendingText changes token text) ∧
      fresh.attendAll (events ++ .asked request :: later) =
        (last, responses ++ response :: others) ∧
      fresh.attendAll (events ++ later) = (last, responses ++ others) := by
  intro changes last responses
  have hevents : fresh.attendAll events = (after changes, responses) :=
    Prod.ext (attendAll_fst fresh events) rfl
  have hlater : (after changes).attendAll later = (last, ((after changes).attendAll later).2) :=
    Prod.ext ((attendAll_fst _ later).trans List.foldl_append.symm) rfl
  have hfinds : ∀ text, challengeText? (after changes).board request = some text ↔
      ∃ token, request.Fetches token ∧ PendingText changes token text := by
    intro text
    simp only [challengeText?_eq_some_iff, text?_after]
  refine ⟨answer (after changes).board request, ((after changes).attendAll later).2,
    fun text => answer_eq_found_iff.trans (hfinds text), ?_, ?_, ?_⟩
  · refine answer_eq_notFound_iff.trans ?_
    rw [Option.eq_none_iff_forall_ne_some]
    simp only [ne_eq, hfinds, not_exists, not_and]
    exact forall_comm
  · rw [attendAll_append, hevents]
    simp only [attendAll, attend]
    rw [hlater]
    rfl
  · rw [attendAll_append, hevents]
    dsimp only
    rw [hlater]

end Front

end RegistryFront.Acme
