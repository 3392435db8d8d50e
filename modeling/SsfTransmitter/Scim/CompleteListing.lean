import SsfTransmitter.Scim.Indexing

/-!
# The listing is complete, or there is none

Whatever Apple answers, the paged listing ends after as many requests as its first
page promises users, and a listing that it returns is exactly what the pages held.
-/

namespace SsfTransmitter.Scim

open SsfTransmitter.Core
open SsfTransmitter.Python

/-- The exchanges of a run. -/
abbrev Transcript := List (Exchange Request Outcome)

/-- The JSON objects among the answers. -/
def pagesOf (transcript : Transcript) : List Dict :=
  transcript.filterMap fun exchange => exchange.2.usersPage.toOption

/-- The users on the pages. -/
def usersOf (transcript : Transcript) : List Dict :=
  (pagesOf transcript).flatMap resourcesOf

/-- `totalResults` of a page, zero where it is not an integer. -/
def totalResults (data : Dict) : ℤ :=
  match data.getD "totalResults" .null with
  | .int total => total
  | _ => 0

/-- `totalResults` of the first page, zero where the first answer is not a page. -/
def firstTotal : Transcript → ℤ
  | [] => 0
  | (_, outcome) :: _ => (outcome.usersPage.toOption.map totalResults).getD 0

/-- The request for the page after some pages: no start index at first, then that of the
first user who is not on them. -/
def pageAfter (transcript : Transcript) : Request :=
  .listUsers (if transcript = [] then none else some ((usersOf transcript).length + 1))

/-- Pages that were requested one after the other, from the first on. -/
def PagesInTurn (transcript : Transcript) : Prop :=
  ∀ position exchange, transcript[position]? = some exchange →
    exchange.1 = pageAfter (transcript.take position)

/-- A page whose Resources are objects and nothing else. -/
def IsUsersPage (outcome : Outcome) : Prop :=
  ∃ data, outcome.usersPage = .ok data ∧
    data.getD "Resources" (.list []) = .list ((resourcesOf data).map .dict)

/-- A request that does not write.  No account is read before something else was. -/
structure Reads (transcript : Transcript) (request : Request) : Prop where
  notWrite : request.isWrite = false
  notFirst : (∃ userId, request = .readUser userId) → transcript ≠ []

/-- Any answers, but only requests that read. -/
abbrev reading : Environment Transcript Request Outcome :=
  recording Reads fun _ _ _ => True

theorem reads_listUsers (transcript : Transcript) (start : Option ℤ) :
    Reads transcript (.listUsers start) :=
  ⟨rfl, nofun⟩

theorem reads_filterUsers (transcript : Transcript) (identity : IdentityAttribute)
    (value : Json) : Reads transcript (.filterUsers identity value) :=
  ⟨rfl, nofun⟩

theorem reads_readUser {transcript : Transcript} (hstarted : transcript ≠ [])
    (userId : PyStr) : Reads transcript (.readUser userId) :=
  ⟨rfl, fun _ => hstarted⟩

variable [PyRuntime]

/-- A listing that holds exactly what the pages held. -/
structure Complete (transcript : Transcript) (listing : Listing) : Prop where
  pages : ∀ exchange ∈ transcript, IsUsersPage exchange.2
  users : listing.users = usersOf transcript
  total : (listing.users.length : ℤ) = firstTotal transcript
  exact : listing.Exact

/-- What the listing owes after a run. -/
structure ListedBy (transcript : Transcript) (outcome : Except PyExc Listing) : Prop where
  asked : transcript ≠ []
  inTurn : PagesInTurn transcript
  length_le : (transcript.length : ℤ) ≤ max 1 (firstTotal transcript)
  complete : ∀ listing, outcome = .ok listing → Complete transcript listing

/-- Before another page: those read so far are indexed, each brought a user, and some
are missing. -/
structure Unfinished (transcript : Transcript) (listing : Listing)
    (expectedTotal : Option ℤ) : Prop where
  inTurn : PagesInTurn transcript
  pages : ∀ exchange ∈ transcript, IsUsersPage exchange.2
  users : listing.users = usersOf transcript
  exact : listing.Exact
  length_le : transcript.length ≤ listing.users.length
  first : expectedTotal = none → transcript = []
  later : ∀ total ∈ expectedTotal, transcript ≠ [] ∧ total = firstTotal transcript ∧
    (listing.users.length : ℤ) < total

theorem Unfinished.start : Unfinished [] {} none where
  inTurn _ _ hnone := by cases hnone
  pages := nofun
  users := rfl
  exact := .empty
  length_le := le_rfl
  first _ := rfl
  later := nofun

section Transcripts

omit [PyRuntime]

variable {transcript : Transcript} {request : Request} {outcome : Outcome} {data : Dict}

theorem firstTotal_snoc (hstarted : transcript ≠ []) (exchange : Exchange Request Outcome) :
    firstTotal (transcript ++ [exchange]) = firstTotal transcript := by
  cases transcript with
  | nil => exact absurd rfl hstarted
  | cons first rest => rfl

theorem PagesInTurn.snoc (hinTurn : PagesInTurn transcript) (outcome : Outcome) :
    PagesInTurn (transcript ++ [(pageAfter transcript, outcome)]) := by
  intro position exchange hexchange
  by_cases hearlier : position < transcript.length
  · rw [List.getElem?_append_left hearlier] at hexchange
    rw [List.take_append_of_le_length hearlier.le]
    exact hinTurn position exchange hexchange
  · rw [List.getElem?_append_right (not_lt.mp hearlier)] at hexchange
    have hlast := (List.getElem?_eq_some_iff.mp hexchange).1
    rw [List.length_singleton] at hlast
    obtain rfl : position = transcript.length := by omega
    rw [Nat.sub_self] at hexchange
    obtain rfl := Option.some.inj hexchange
    rw [List.take_left]

theorem usersOf_snoc (hdata : outcome.usersPage = .ok data) :
    usersOf (transcript ++ [(request, outcome)]) = usersOf transcript ++ resourcesOf data := by
  simp [usersOf, pagesOf, hdata, Except.toOption]

end Transcripts

namespace Unfinished

variable {transcript : Transcript} {listing : Listing} {expectedTotal : Option ℤ}

/-- One more request is still within the bound. -/
theorem length_succ_le (hunfinished : Unfinished transcript listing expectedTotal)
    (exchange : Exchange Request Outcome) :
    ((transcript ++ [exchange]).length : ℤ) ≤
      max 1 (firstTotal (transcript ++ [exchange])) := by
  rw [List.length_append, List.length_singleton]
  cases expectedTotal with
  | none =>
      rw [hunfinished.first rfl]
      exact le_max_left 1 _
  | some total =>
      obtain ⟨hstarted, htotal, hmissing⟩ := hunfinished.later total rfl
      have hlength := hunfinished.length_le
      rw [firstTotal_snoc hstarted]
      omega

/-- The next page starts after the users that are indexed. -/
theorem pageAfter_eq {total : ℤ} (hunfinished : Unfinished transcript listing (some total)) :
    pageAfter transcript = .listUsers (some (listing.users.length + 1)) := by
  rw [pageAfter, if_neg (hunfinished.later total rfl).1, hunfinished.users]

/-- A failure to read another page. -/
theorem fail (hunfinished : Unfinished transcript listing expectedTotal) (outcome : Outcome)
    (error : PyExc) :
    ListedBy (transcript ++ [(pageAfter transcript, outcome)]) (.error error) where
  asked := List.append_ne_nil_of_right_ne_nil _ (List.cons_ne_nil _ _)
  inTurn := hunfinished.inTurn.snoc outcome
  length_le := hunfinished.length_succ_le _
  complete := nofun

variable {data : Dict} {next : Cursor} {outcome : Outcome}

/-- What another page leads to. -/
structure Advanced (transcript : Transcript) (listing : Listing)
    (exchange : Exchange Request Outcome) (next : Cursor) : Prop where
  started : firstTotal (transcript ++ [exchange]) = next.expectedTotal
  pages : ∀ other ∈ transcript ++ [exchange], IsUsersPage other.2
  users : next.listing.users = usersOf (transcript ++ [exchange])
  exact : next.listing.Exact
  start : next.expectedStart = next.listing.users.length + 1
  fits : (next.listing.users.length : ℤ) ≤ next.expectedTotal
  length_le : (next.listing.users.length : ℤ) < next.expectedTotal →
    (transcript ++ [exchange]).length ≤ next.listing.users.length
  url : next.url = if (next.listing.users.length : ℤ) < next.expectedTotal
    then some next.expectedStart else none

theorem read (hunfinished : Unfinished transcript listing expectedTotal)
    (hdata : outcome.usersPage = .ok data)
    (hread : readUsersPage data listing (listing.users.length + 1) expectedTotal = .ok next) :
    Advanced transcript listing (pageAfter transcript, outcome) next := by
  obtain ⟨users, hpage, hexpected, hindex, hstart, hurl⟩ := readUsersPage_eq_ok hread
  obtain ⟨hexact, husers⟩ := hunfinished.exact.foldlM_index hindex
  have hresources := resourcesOf_eq hpage.resources_eq
  have hlength : (next.listing.users.length : ℤ) = listing.users.length + users.length := by
    rw [husers, List.length_append]
    push_cast
    rfl
  have hfits := hpage.fits
  have hbefore := hunfinished.length_le
  refine ⟨?_, ?_, ?_, hexact, by omega, by omega, ?_, ?_⟩
  · cases htotal : expectedTotal with
    | none =>
        rw [hunfinished.first htotal]
        simp [firstTotal, hdata, Except.toOption, totalResults, hpage.total_eq]
    | some total =>
        obtain ⟨hstarted, hfirst, -⟩ := hunfinished.later total htotal
        rw [firstTotal_snoc hstarted, ← hfirst, hexpected total htotal]
  · refine List.forall_mem_append.mpr ⟨hunfinished.pages, ?_⟩
    simp only [List.mem_singleton, forall_eq]
    exact ⟨data, hdata, by rw [hresources]; exact hpage.resources_eq⟩
  · rw [husers, hunfinished.users, usersOf_snoc hdata, hresources]
  · intro hmissing
    have hbrought : users.length ≠ 0 := by
      intro hzero
      have hpast := hpage.progress (List.eq_nil_of_length_eq_zero hzero)
      omega
    rw [List.length_append, List.length_singleton]
    omega
  · rw [hurl]
    congr 1
    rw [hstart]
    apply propext
    omega

end Unfinished

namespace Unfinished.Advanced

variable {expectedTotal : Option ℤ} {transcript : Transcript} {listing : Listing}
variable {outcome : Outcome} {next : Cursor}

theorem unfinished (hunfinished : Unfinished transcript listing expectedTotal)
    (hadvanced : Advanced transcript listing (pageAfter transcript, outcome) next)
    (hmore : next.url.isSome) :
    Unfinished (transcript ++ [(pageAfter transcript, outcome)]) next.listing
      (some next.expectedTotal) := by
  have hmissing : (next.listing.users.length : ℤ) < next.expectedTotal := by
    by_contra hlast
    rw [hadvanced.url, if_neg hlast] at hmore
    cases hmore
  exact {
    inTurn := hunfinished.inTurn.snoc outcome
    pages := hadvanced.pages
    users := hadvanced.users
    exact := hadvanced.exact
    length_le := hadvanced.length_le hmissing
    first := nofun
    later := by
      rintro total htotal
      obtain rfl := Option.some.inj htotal
      exact ⟨by simp, hadvanced.started.symm, hmissing⟩ }

theorem start_of_url
    (hadvanced : Advanced transcript listing (pageAfter transcript, outcome) next) :
    ∀ start, next.url = some start → start = next.expectedStart := by
  intro start hurl
  rw [hadvanced.url] at hurl
  split_ifs at hurl
  exact (Option.some.inj hurl).symm

/-- The last page completes the listing. -/
theorem listedBy (hunfinished : Unfinished transcript listing expectedTotal)
    (hadvanced : Advanced transcript listing (pageAfter transcript, outcome) next)
    (hlast : next.url = none) :
    ListedBy (transcript ++ [(pageAfter transcript, outcome)]) (.ok next.listing) where
  asked := List.append_ne_nil_of_right_ne_nil _ (List.cons_ne_nil _ _)
  inTurn := hunfinished.inTurn.snoc outcome
  length_le := hunfinished.length_succ_le _
  complete := by
    rintro _ ⟨rfl⟩
    refine ⟨hadvanced.pages, hadvanced.users, ?_, hadvanced.exact⟩
    rw [hadvanced.started]
    refine le_antisymm hadvanced.fits (not_lt.mp fun hmissing => ?_)
    rw [hadvanced.url, if_pos hmissing] at hlast
    cases hlast

end Unfinished.Advanced

variable {State : Type}

omit [PyRuntime] in
theorem wp_fetchUsersPage {request : Request} {transcript : Transcript} {state : State}
    {wanted : Except PyExc Dict → Transcript → State → Prop}
    (hreads : Reads transcript request)
    (hwanted : ∀ outcome : Outcome,
      wanted outcome.usersPage (transcript ++ [(request, outcome)]) state) :
    Script.wp reading (fetchUsersPage request) wanted transcript state := by
  simp only [fetchUsersPage, Script.wp_bind, Script.wp_ask, Script.wp_ofExcept]
  refine ⟨hreads, ?_⟩
  rintro outcome _ ⟨-, rfl⟩
  exact hwanted outcome

omit [PyRuntime] in
theorem wp_fetchUsersPage_bind {Value : Type} {request : Request} {transcript : Transcript}
    {state : State} {rest : Dict → Client State Value}
    {wanted : Except PyExc Value → Transcript → State → Prop}
    (hreads : Reads transcript request)
    (hfailed : ∀ (outcome : Outcome) (error : PyExc), outcome.usersPage = .error error →
      wanted (.error error) (transcript ++ [(request, outcome)]) state)
    (hpage : ∀ (outcome : Outcome) (data : Dict), outcome.usersPage = .ok data →
      Script.wp reading (rest data) wanted (transcript ++ [(request, outcome)]) state) :
    Script.wp reading (fetchUsersPage request >>= rest) wanted transcript state := by
  rw [Script.wp_bind]
  refine wp_fetchUsersPage hreads fun outcome => ?_
  cases hdata : outcome.usersPage with
  | error error => exact hfailed outcome error hdata
  | ok data => exact hpage outcome data hdata

theorem wp_listUsersFrom {cursor : Cursor} {transcript : Transcript} {state : State}
    (hlast : cursor.url = none → ListedBy transcript (.ok cursor.listing))
    (hmore : cursor.url.isSome →
      Unfinished transcript cursor.listing (some cursor.expectedTotal))
    (hstart : cursor.expectedStart = cursor.listing.users.length + 1)
    (hurl : ∀ start, cursor.url = some start → start = cursor.expectedStart) :
    Script.wp reading (listUsersFrom cursor)
      (fun outcome after left => left = state ∧ ListedBy after outcome) transcript state := by
  induction cursor using listUsersFrom.induct generalizing transcript with
  | case1 cursor hnone =>
      rw [listUsersFrom.eq_def]
      split
      · exact ⟨rfl, hlast hnone⟩
      · next hsome => cases hnone.symm.trans hsome
  | case2 cursor start hsome ih =>
      have hunfinished := hmore (by rw [hsome]; rfl)
      rw [listUsersFrom.eq_def]
      split
      · next hnone => cases hsome.symm.trans hnone
      · next asked hasked =>
        have hpage : Request.listUsers (some asked) = pageAfter transcript := by
          rw [hunfinished.pageAfter_eq, hurl asked hasked, hstart]
        rw [hpage]
        refine wp_fetchUsersPage_bind (reads_listUsers _ _)
          (fun outcome error _ => ⟨rfl, hunfinished.fail outcome error⟩)
          fun outcome data hdata => ?_
        split
        · exact ⟨rfl, hunfinished.fail outcome _⟩
        · next following hread =>
          have hadvanced := hunfinished.read hdata (hstart ▸ hread)
          exact ih data following hread (hadvanced.listedBy hunfinished)
            (hadvanced.unfinished hunfinished) hadvanced.start hadvanced.start_of_url

theorem wp_getExistingUsers {state : State} :
    Script.wp reading getExistingUsers
      (fun outcome after left => left = state ∧ ListedBy after outcome) [] state := by
  refine wp_fetchUsersPage_bind (reads_listUsers _ _)
    (fun outcome error _ => ⟨rfl, Unfinished.start.fail outcome error⟩)
    fun outcome data hdata => ?_
  refine Script.wp_ofExcept_bind.mpr
    ⟨fun error _ => ⟨rfl, Unfinished.start.fail outcome error⟩, fun single _ => ?_⟩
  cases single with
  | some appleUsers =>
      refine Script.wp_ofExcept_bind.mpr
        ⟨fun error _ => ⟨rfl, Unfinished.start.fail outcome error⟩, fun sample _ => ?_⟩
      exact ⟨rfl, Unfinished.start.fail outcome _⟩
  | none =>
      refine Script.wp_ofExcept_bind.mpr
        ⟨fun error _ => ⟨rfl, Unfinished.start.fail outcome error⟩, fun cursor hread => ?_⟩
      have hadvanced := Unfinished.start.read hdata hread
      exact wp_listUsersFrom (hadvanced.listedBy .start) (hadvanced.unfinished .start)
        hadvanced.start hadvanced.start_of_url

/-- Whatever Apple answers, the listing asks for the pages one after the other, takes no more
requests than its first page promises users, and either raises or returns exactly the users
of the pages. -/
theorem getExistingUsers_complete_or_raises (answers : ℕ → Outcome) (state : State) :
    let run := Script.converse answers (getExistingUsers : Client State Listing) state
    ListedBy run.1 run.2.1 :=
  (Script.converse_of_wp wp_getExistingUsers answers).2.2

end SsfTransmitter.Scim
