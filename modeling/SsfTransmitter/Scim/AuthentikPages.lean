import SsfTransmitter.Scim.Authentik

/-!
# What the upstream can make of a fetch

The loop of `_fetch_all_users` follows a trail of links, and what it returns is
read off this trail.  A page that cannot be fetched or decoded gives the fetch up,
as documented; the other malformed pages raise, or are taken as they are.
-/

namespace SsfTransmitter.Scim

open SsfTransmitter.Core
open SsfTransmitter.Python

/-! ## Trails -/

/-- The URL of the next page, where the loop goes on with one. -/
def nextLink (outcome : Outcome) : Option PyStr :=
  match readPage outcome with
  | .ok (some (_, .str next)) => if next = [] then none else some next
  | _ => none

def pageResults (outcome : Outcome) : List Json :=
  match readPage outcome with
  | .ok (some (results, _)) => results
  | _ => []

/-- What the fetch ends with at a last page, after `allUsers` with its results. -/
def ending (outcome : Outcome) (allUsers : List Json) : Except PyExc (Option (List Json)) :=
  match readPage outcome with
  | .error error => .error error
  | .ok none => .ok none
  | .ok (some (_, next)) => if next.truthy then .error .typeError else .ok (some allUsers)

/-- A request: its number and its URL. -/
abbrev PageRequest := ℕ × PyStr

def answerTo (server : ℕ → PyStr → Outcome) (request : PageRequest) : Outcome :=
  server request.1 request.2

/-- The request that follows a request. -/
def nextRequest (server : ℕ → PyStr → Outcome) (request : PageRequest) : Option PageRequest :=
  (nextLink (answerTo server request)).map fun next => (request.1 + 1, next)

theorem nextLink_ne_nil {outcome : Outcome} {next : PyStr} (hlink : nextLink outcome = some next) :
    next ≠ [] := by
  rw [nextLink] at hlink
  split at hlink
  · split_ifs at hlink with hempty
    exact Option.some.inj hlink ▸ hempty
  · cases hlink

/-- Where `nextLink` leads on, the page was read. -/
theorem readPage_of_nextLink {outcome : Outcome} {next : PyStr}
    (hlink : nextLink outcome = some next) :
    readPage outcome = .ok (some (pageResults outcome, .str next)) := by
  rw [nextLink] at hlink
  split at hlink
  · next results text hread =>
    split_ifs at hlink
    obtain rfl := Option.some.inj hlink
    rw [pageResults, hread]
  · cases hlink

theorem truthy_str {text : PyStr} (htext : text ≠ []) : ¬(Json.str text).truthy = false := by
  cases text with
  | nil => exact absurd rfl htext
  | cons point rest => simp [Json.truthy]

section Loop

variable {server : ℕ → PyStr → Outcome} {fuel : ℕ} {url : PyStr} {allUsers : List Json}
  {requests : List PyStr}

/-- A turn of the loop that leads on. -/
theorem fetchAllUsers_more {next : PyStr} (hurl : url ≠ [])
    (hlink : nextLink (server requests.length url) = some next) :
    fetchAllUsers server (fuel + 1) (.str url) allUsers requests =
      fetchAllUsers server fuel (.str next)
        (allUsers ++ pageResults (server requests.length url)) (requests ++ [url]) := by
  rw [fetchAllUsers, if_neg (truthy_str hurl)]
  rw [readPage_of_nextLink hlink]

/-- The last turn of the loop, and the test after it. -/
theorem fetchAllUsers_last (hurl : url ≠ [])
    (hlink : nextLink (server requests.length url) = none) :
    fetchAllUsers server (fuel + 2) (.str url) allUsers requests =
      some ⟨requests ++ [url], ending (server requests.length url)
        (allUsers ++ pageResults (server requests.length url))⟩ := by
  rw [fetchAllUsers, if_neg (truthy_str hurl)]
  rw [nextLink] at hlink
  rw [ending, pageResults]
  rcases hread : readPage (server requests.length url) with error | page
  · rfl
  · rcases page with _ | ⟨results, next⟩
    · rfl
    · dsimp only
      rw [hread] at hlink
      rw [fetchAllUsers.eq_def]
      dsimp only
      by_cases htruthy : next.truthy = false
      · rw [if_pos htruthy, if_neg (by simp [htruthy])]
      · rw [if_neg htruthy, if_pos (by simpa using htruthy)]
        cases next with
        | str text =>
            dsimp only at hlink
            split_ifs at hlink with hempty
            subst hempty
            exact absurd rfl htruthy
        | _ => rfl

theorem fetch_eq_of_last {fetch : Fetch} (hurl : url ≠ [])
    (hlink : nextLink (server requests.length url) = none)
    (hfetch : fetchAllUsers server (fuel + 1) (.str url) allUsers requests = some fetch) :
    fetch = ⟨requests ++ [url], ending (server requests.length url)
      (allUsers ++ pageResults (server requests.length url))⟩ := by
  cases fuel with
  | zero =>
      rw [fetchAllUsers, if_neg (truthy_str hurl)] at hfetch
      rw [ending, pageResults]
      rcases hread : readPage (server requests.length url) with error | page
      · rw [hread] at hfetch
        exact (Option.some.inj hfetch).symm
      · rcases page with _ | ⟨results, next⟩
        · rw [hread] at hfetch
          exact (Option.some.inj hfetch).symm
        · rw [hread] at hfetch
          cases hfetch
  | succ fuel =>
      rw [fetchAllUsers_last hurl hlink] at hfetch
      exact (Option.some.inj hfetch).symm

/-- What a fetch along the trail `before ++ [last]` amounts to. -/
def fetchAlong (server : ℕ → PyStr → Outcome) (before : List PageRequest) (last : PageRequest)
    (allUsers : List Json) (requests : List PyStr) : Fetch where
  requests := requests ++ (before ++ [last]).map Prod.snd
  result := ending (answerTo server last)
    (allUsers ++ (before ++ [last]).flatMap fun request => pageResults (answerTo server request))

theorem fetchAlong_cons (request : PageRequest) (before : List PageRequest)
    (last : PageRequest) :
    fetchAlong server (request :: before) last allUsers requests =
      fetchAlong server before last (allUsers ++ pageResults (answerTo server request))
        (requests ++ [request.2]) := by
  simp [fetchAlong]

theorem fetchAlong_nil (last : PageRequest) :
    fetchAlong server [] last allUsers requests =
      ⟨requests ++ [last.2], ending (answerTo server last)
        (allUsers ++ pageResults (answerTo server last))⟩ := by
  simp [fetchAlong]

/-- A fetch that ends has followed a trail that ends. -/
theorem trail_of_fetchAllUsers {fetch : Fetch} (hurl : url ≠ [])
    (hfetch : fetchAllUsers server fuel (.str url) allUsers requests = some fetch) :
    ∃ before last, Trail (nextRequest server) (requests.length, url) (before ++ [last]) ∧
      fetch = fetchAlong server before last allUsers requests := by
  induction fuel generalizing url allUsers requests with
  | zero => cases hfetch
  | succ fuel ih =>
      rcases hlink : nextLink (server requests.length url) with _ | next
      · refine ⟨[], (requests.length, url), .last ?_, ?_⟩
        · rw [nextRequest, answerTo, hlink]
          rfl
        · rw [fetchAlong_nil]
          exact fetch_eq_of_last hurl hlink hfetch
      · rw [fetchAllUsers_more hurl hlink] at hfetch
        obtain ⟨before, last, htrail, hresult⟩ := ih (nextLink_ne_nil hlink) hfetch
        rw [List.length_append, List.length_singleton] at htrail
        refine ⟨(requests.length, url) :: before, last, .more ?_ htrail, ?_⟩
        · rw [nextRequest, answerTo, hlink]
          rfl
        · rw [fetchAlong_cons]
          exact hresult

/-- A trail that ends is followed to its end. -/
theorem fetchAllUsers_of_trail {request : PageRequest} {nodes : List PageRequest}
    (htrail : Trail (nextRequest server) request nodes) (hurl : request.2 ≠ [])
    (allUsers : List Json) (requests : List PyStr) (hlength : requests.length = request.1) :
    ∃ fuel fetch, fetchAllUsers server fuel (.str request.2) allUsers requests = some fetch := by
  induction htrail generalizing allUsers requests with
  | @last request hnone =>
      rw [nextRequest, Option.map_eq_none_iff, answerTo, ← hlength] at hnone
      exact ⟨2, _, fetchAllUsers_last hurl hnone⟩
  | @more request target rest hnext hrest ih =>
      rw [nextRequest, Option.map_eq_some_iff] at hnext
      obtain ⟨next, hlink, rfl⟩ := hnext
      rw [answerTo, ← hlength] at hlink
      have hcount : (requests ++ [request.2]).length = request.1 + 1 := by
        rw [List.length_append, List.length_singleton, hlength]
      obtain ⟨fuel, fetch, hfetch⟩ := ih (nextLink_ne_nil hlink)
        (allUsers ++ pageResults (server requests.length request.2)) _ hcount
      refine ⟨fuel + 1, fetch, ?_⟩
      rw [fetchAllUsers_more hurl hlink]
      exact hfetch

end Loop

/-! ## Pages -/

/-- A page that gives the fetch up: not fetched, or not decoded. -/
def FailedPage (outcome : Outcome) : Prop :=
  outcome = .networkError ∨ ∃ reply, outcome = .response reply ∧
    (reply.status ≠ 200 ∨ ∀ value, reply.body ≠ .json value)

def Iterable (value : Json) : Prop :=
  (∃ items, value = .list items) ∨ (∃ fields, value = .dict fields) ∨
    ∃ text, value = .str text

/-- No further page, or a string that names it. -/
def LinkOrNothing (value : Json) : Prop :=
  value.truthy = true → ∃ text, value = .str text

/-- A JSON object with something to iterate over and a usable link. -/
def FollowablePage (outcome : Outcome) : Prop :=
  ∃ reply data, outcome = .response reply ∧ reply.status = 200 ∧
    reply.body = .json (.dict data) ∧ Iterable (Dict.getD data "results" (.list [])) ∧
    LinkOrNothing (Dict.getD data "next" .null)

theorem readPage_eq_none_iff {outcome : Outcome} :
    readPage outcome = .ok none ↔ FailedPage outcome := by
  rcases outcome with ⟨status, body⟩ | _ | _
  · rw [readPage, FailedPage]
    by_cases hstatus : status = 200
    · subst hstatus
      rcases body with value | _ | _
      · cases value <;> simp [Response.json, Except.map]
        split <;> simp
      · simp [Response.json]
      · simp [Response.json]
    · simp [hstatus]
  · simp [readPage, FailedPage]
  · simp [readPage, FailedPage]

theorem iterated_eq_ok_iff {value : Json} :
    (∃ items, iterated value = .ok items) ↔ Iterable value := by
  cases value <;> simp [iterated, Iterable]

/-- What a page that was read consists of. -/
theorem exists_data_of_readPage {outcome : Outcome} {results : List Json} {next : Json}
    (hread : readPage outcome = .ok (some (results, next))) :
    ∃ reply data, outcome = .response reply ∧ reply.status = 200 ∧
      reply.body = .json (.dict data) ∧
      iterated (Dict.getD data "results" (.list [])) = .ok results ∧
      Dict.getD data "next" .null = next := by
  rcases outcome with ⟨status, body⟩ | _ | _
  · rw [readPage] at hread
    by_cases hstatus : status = 200
    · rw [if_neg (not_not_intro hstatus)] at hread
      rcases body with value | _ | _
      · cases value with
        | dict data =>
            simp only [Response.json] at hread
            rcases hitems : iterated (Dict.getD data "results" (.list [])) with error | items
            · rw [hitems] at hread
              cases hread
            · rw [hitems] at hread
              obtain ⟨rfl, rfl⟩ := Prod.mk.inj (Option.some.inj (Except.ok.inj hread))
              exact ⟨_, data, rfl, hstatus, rfl, hitems, rfl⟩
        | _ => cases hread
      · cases hread
      · cases hread
    · rw [if_pos hstatus] at hread
      cases hread
  · cases hread
  · cases hread

/-- The pages that are read to the end. -/
theorem exists_readPage_iff {outcome : Outcome} :
    (∃ results next, readPage outcome = .ok (some (results, next)) ∧ LinkOrNothing next) ↔
      FollowablePage outcome := by
  constructor
  · intro hread
    obtain ⟨results, next, hread, hnext⟩ := hread
    obtain ⟨reply, data, houtcome, hstatus, hbody, hresults, rfl⟩ :=
      exists_data_of_readPage hread
    exact ⟨reply, data, houtcome, hstatus, hbody,
      iterated_eq_ok_iff.mp ⟨results, hresults⟩, hnext⟩
  · intro hpage
    obtain ⟨reply, data, rfl, hstatus, hbody, hresults, hnext⟩ := hpage
    obtain ⟨items, hitems⟩ := iterated_eq_ok_iff.mpr hresults
    refine ⟨items, _, ?_, hnext⟩
    rw [readPage, if_neg (not_not_intro hstatus), Response.json, hbody]
    dsimp only
    rw [hitems]
    rfl

theorem followablePage_of_nextLink {outcome : Outcome} {next : PyStr}
    (hlink : nextLink outcome = some next) : FollowablePage outcome :=
  exists_readPage_iff.mp ⟨_, _, readPage_of_nextLink hlink, fun _ => ⟨next, rfl⟩⟩

theorem ending_of_failed {outcome : Outcome} (hfailed : FailedPage outcome)
    (allUsers : List Json) : ending outcome allUsers = .ok none := by
  rw [ending, readPage_eq_none_iff.mpr hfailed]

/-- At a page without a further link the fetch returns what it collected. -/
theorem ending_of_followable {outcome : Outcome} (hpage : FollowablePage outcome)
    (hlink : nextLink outcome = none) (allUsers : List Json) :
    ending outcome allUsers = .ok (some allUsers) := by
  obtain ⟨results, next, hread, hnext⟩ := exists_readPage_iff.mpr hpage
  rw [nextLink, hread] at hlink
  rw [ending, hread]
  dsimp only
  by_cases htruthy : next.truthy = true
  · obtain ⟨text, rfl⟩ := hnext htruthy
    dsimp only at hlink
    split_ifs at hlink with hempty
    subst hempty
    cases htruthy
  · rw [if_neg htruthy]

theorem page_of_ending {outcome : Outcome} {allUsers : List Json}
    {result : Option (List Json)} (hending : ending outcome allUsers = .ok result) :
    FailedPage outcome ∨ FollowablePage outcome := by
  rw [ending] at hending
  split at hending
  · cases hending
  · next hread => exact Or.inl (readPage_eq_none_iff.mp hread)
  · next results next hread =>
    split_ifs at hending with htruthy
    exact Or.inr (exists_readPage_iff.mp
      ⟨results, next, hread, fun htrue => absurd htrue htruthy⟩)

/-! ## Servers that answer by URL -/

section Site

variable (site : PyStr → Outcome)

/-- The link of a site from one URL to the next. -/
def siteLink (url : PyStr) : Option PyStr :=
  nextLink (site url)

/-- The fetch returns after finitely many requests, repeats none, and returns `None`
or the results of the visited pages in their order. -/
def PagingEnds (start : PyStr) : Prop :=
  ∃ fuel fetch, fetchAllUsers (fun _ => site) fuel (.str start) [] [] = some fetch ∧
    fetch.requests.Nodup ∧
    (fetch.result = .ok none ∨
      fetch.result = .ok (some (fetch.requests.flatMap fun url => pageResults (site url))))

/-- Paging ends exactly at a site whose links lead into no cycle and whose pages on
the way either fail or can be followed. -/
theorem pagingEnds_iff {start : PyStr} (hstart : start ≠ [])
    (hfinite : {url | Relation.TransGen (LinksTo (siteLink site)) start url}.Finite) :
    PagingEnds site start ↔
      ∀ url, Relation.ReflTransGen (LinksTo (siteLink site)) start url →
        ¬Relation.TransGen (LinksTo (siteLink site)) url url ∧
          (FailedPage (site url) ∨ FollowablePage (site url)) := by
  have hnext : ∀ request : PageRequest, siteLink site request.2 =
      (nextRequest (fun _ => site) request).map Prod.snd := by
    intro request
    rw [nextRequest, Option.map_map]
    exact Option.map_id'.symm
  constructor
  · intro hends
    obtain ⟨fuel, fetch, hfetch, -, hresult⟩ := hends
    obtain ⟨before, last, htrail, rfl⟩ := trail_of_fetchAllUsers hstart hfetch
    have hurls := htrail.map hnext
    rw [List.map_append, List.map_singleton] at hurls
    have hacyclic := (Trail.exists_iff_acyclic hfinite).mp ⟨_, hurls⟩
    intro url hreach
    refine ⟨hacyclic url hreach, ?_⟩
    rcases hlink : nextLink (site url) with _ | next
    · obtain rfl := hurls.eq_last (hurls.mem_of_reachable hreach) hlink
      rcases hresult with hnone | hsome
      · exact page_of_ending hnone
      · exact page_of_ending hsome
    · exact Or.inr (followablePage_of_nextLink hlink)
  · intro hsite
    obtain ⟨urls, hurls⟩ := Trail.exists_of_acyclic hfinite fun url hreach =>
      (hsite url hreach).1
    have hstarting : Trail (siteLink site) (Prod.snd ((0, start) : PageRequest)) urls := hurls
    obtain ⟨nodes, htrail⟩ := Trail.exists_of_map hnext hstarting
    obtain ⟨fuel, fetch, hfetch⟩ := fetchAllUsers_of_trail htrail hstart [] [] rfl
    obtain ⟨before, last, hsame, rfl⟩ := trail_of_fetchAllUsers hstart hfetch
    have hvisited := hsame.map hnext
    refine ⟨fuel, _, hfetch, ?_, ?_⟩
    · exact hvisited.nodup
    · have hmem : last.2 ∈ (before ++ [last]).map Prod.snd :=
        List.mem_map_of_mem (List.mem_append_right _ (List.mem_singleton_self last))
      have hlast : nextLink (site last.2) = none := by
        rw [List.map_append, List.map_singleton] at hvisited
        exact hvisited.last_link
      rcases (hsite last.2 (hvisited.reachable_of_mem hmem)).2 with hfailed | hpage
      · exact Or.inl (ending_of_failed hfailed _)
      · refine Or.inr ((ending_of_followable hpage hlast _).trans ?_)
        simp [fetchAlong, answerTo, List.flatMap_map]

end Site

def pageOf (results : List Json) (next : Json) : Outcome :=
  .response ⟨200, .json (.dict [("results", .list results), ("next", next)]), true⟩

def firstUrl : PyStr := ofString "https://idp/users"

def secondUrl : PyStr := ofString "https://idp/users?page=2"

/-- Two pages of users, the first linked to the second. -/
def linkedSite (url : PyStr) : Outcome :=
  if url = firstUrl then pageOf [.dict []] (.str secondUrl) else pageOf [.dict []] .null

theorem pagingEnds_linkedSite : PagingEnds linkedSite firstUrl := by
  have hother : secondUrl ≠ firstUrl := by decide +kernel
  have hlast : ∀ url, url ≠ firstUrl → siteLink linkedSite url = none := by
    intro url hurl
    rw [siteLink, linkedSite, if_neg hurl]
    rfl
  have hlinks : ∀ source target, LinksTo (siteLink linkedSite) source target →
      source = firstUrl ∧ target = secondUrl := by
    intro source target hlink
    by_cases hsource : source = firstUrl
    · rw [LinksTo, siteLink, linkedSite, if_pos hsource] at hlink
      exact ⟨hsource, (Option.some.inj hlink).symm⟩
    · rw [LinksTo, hlast source hsource] at hlink
      cases hlink
  have hpaths : ∀ source target, Relation.TransGen (LinksTo (siteLink linkedSite)) source target →
      source = firstUrl ∧ target = secondUrl := by
    intro source target hpath
    obtain ⟨next, hfirst, -⟩ := Relation.TransGen.head'_iff.mp hpath
    obtain ⟨before, -, hfinal⟩ := Relation.TransGen.tail'_iff.mp hpath
    exact ⟨(hlinks source next hfirst).1, (hlinks before target hfinal).2⟩
  have hpages : ∀ url, FollowablePage (linkedSite url) := by
    intro url
    rw [linkedSite]
    split_ifs
    · exact ⟨_, _, rfl, rfl, rfl, Or.inl ⟨_, rfl⟩, fun _ => ⟨secondUrl, rfl⟩⟩
    · exact ⟨_, _, rfl, rfl, rfl, Or.inl ⟨_, rfl⟩, fun htrue => Bool.noConfusion htrue⟩
  refine (pagingEnds_iff _ (by decide +kernel) ?_).mpr ?_
  · exact (Set.finite_singleton secondUrl).subset fun url hpath => (hpaths _ url hpath).2
  · intro url _
    refine ⟨fun hcycle => ?_, Or.inr (hpages url)⟩
    obtain ⟨hstart, hend⟩ := hpaths url url hcycle
    exact hother (hend.symm.trans hstart)

def cyclicUrl : PyStr := ofString "https://idp/users"

/-- A page whose `next` link is the page itself. -/
def cyclicSite : PyStr → Outcome :=
  fun _ => pageOf [] (.str cyclicUrl)

theorem cyclicSite_never_ends :
    {url | Relation.TransGen (LinksTo (siteLink cyclicSite)) cyclicUrl url}.Finite ∧
      ¬PagingEnds cyclicSite cyclicUrl := by
  have hlink : ∀ url, siteLink cyclicSite url = some cyclicUrl := fun _ => rfl
  have hurl : cyclicUrl ≠ [] := by decide +kernel
  constructor
  · apply (Set.finite_singleton cyclicUrl).subset
    intro url hpath
    obtain ⟨source, -, hlast⟩ := Relation.TransGen.tail'_iff.mp hpath
    rw [LinksTo, hlink] at hlast
    exact (Option.some.inj hlast).symm
  · intro hends
    obtain ⟨fuel, fetch, hfetch, -⟩ := hends
    have hnever : ∀ fuel allUsers requests,
        fetchAllUsers (fun _ => cyclicSite) fuel (.str cyclicUrl) allUsers requests = none := by
      intro fuel
      induction fuel with
      | zero => exact fun _ _ => rfl
      | succ fuel ih =>
          intro allUsers requests
          have hnext : nextLink ((fun _ => cyclicSite) requests.length cyclicUrl) =
              some cyclicUrl := hlink cyclicUrl
          rw [fetchAllUsers_more hurl hnext]
          exact ih _ _
    rw [hnever] at hfetch
    cases hfetch

end SsfTransmitter.Scim
