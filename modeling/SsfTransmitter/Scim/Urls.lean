import SsfTransmitter.Python.Quote
import SsfTransmitter.Scim.Lookup

/-!
# The URLs of the Apple requests

A filter lookup carries a user name or an external id through two encoders, the
JSON string literal and the percent escapes; a request about one account carries
its id as a path segment.  The readers of this file take a URL apart as the
generic syntax of URLs does, and find in it what was put in.
-/

namespace SsfTransmitter.Scim

open SsfTransmitter.Python

def appleScimBase : PyStr :=
  ofString "https://federation.apple.com/feeds/business/scim"

/-! ## Building -/

/-- `quote(json.dumps(value, ensure_ascii=False), safe="")`. -/
def filterLiteral (value : PyStr) : Option PyStr :=
  quote (dumpsPlain value)

/-- The query of `_lookup_filtered_user` and, for the user name, of
`_query_username_filter`. -/
def filterUrl (identity : IdentityAttribute) (value : PyStr) : Option PyStr :=
  (filterLiteral value).map fun literal =>
    appleScimBase ++ ofString "/Users?filter=" ++ identity.name ++ ofString "%20eq%20" ++
      literal ++ ofString "&count=2"

/-- `_user_url`. -/
def userUrlText (userId : PyStr) : Option PyStr :=
  (quote userId).map fun segment => appleScimBase ++ ofString "/Users/" ++ segment

/-! ## Taking apart -/

/-- What precedes the fragment. -/
def withoutFragment (url : PyStr) : PyStr :=
  url.takeWhile fun point => point != ofChar '#'

/-- The segments of what precedes the query. -/
def pathSegments (url : PyStr) : List PyStr :=
  ((withoutFragment url).takeWhile fun point => point != ofChar '?').splitOn (ofChar '/')

/-- The query, without its question mark. -/
def queryText (url : PyStr) : Option PyStr :=
  match (withoutFragment url).dropWhile fun point => point != ofChar '?' with
  | [] => none
  | _ :: query => some query

/-- A parameter: its name up to the first equals sign, and its value. -/
def splitParameter (parameter : PyStr) : PyStr × PyStr :=
  (parameter.takeWhile fun point => point != ofChar '=',
    (parameter.dropWhile fun point => point != ofChar '=').drop 1)

/-- The parameters of the query in their order. -/
def queryParameters (url : PyStr) : List (PyStr × PyStr) :=
  match queryText url with
  | none => []
  | some query => (query.splitOn (ofChar '&')).map splitParameter

theorem takeWhile_ne_append {stop : CodePoint} {before : PyStr} (hbefore : stop ∉ before)
    (rest : PyStr) :
    (before ++ stop :: rest).takeWhile (fun point => point != stop) = before := by
  rw [List.takeWhile_append_of_pos, List.takeWhile_cons_of_neg, List.append_nil]
  · simp
  · intro point hpoint
    exact bne_iff_ne.mpr fun heq => hbefore (heq ▸ hpoint)

theorem dropWhile_ne_append {stop : CodePoint} {before : PyStr} (hbefore : stop ∉ before)
    (rest : PyStr) :
    (before ++ stop :: rest).dropWhile (fun point => point != stop) = stop :: rest := by
  rw [List.dropWhile_append_of_pos, List.dropWhile_cons_of_neg]
  · simp
  · intro point hpoint
    exact bne_iff_ne.mpr fun heq => hbefore (heq ▸ hpoint)

theorem takeWhile_ne_eq_self {stop : CodePoint} {text : PyStr} (htext : stop ∉ text) :
    text.takeWhile (fun point => point != stop) = text := by
  rw [List.takeWhile_eq_self_iff]
  intro point hpoint
  exact bne_iff_ne.mpr fun heq => htext (heq ▸ hpoint)

theorem not_mem_join {point stop : CodePoint} {before after : PyStr}
    (hbefore : point ∉ before) (hstop : point ≠ stop) (hafter : point ∉ after) :
    point ∉ before ++ stop :: after := by
  rw [List.mem_append, List.mem_cons]
  exact not_or.mpr ⟨hbefore, not_or.mpr ⟨hstop, hafter⟩⟩

theorem pathSegments_eq {url : PyStr} (hfragment : ofChar '#' ∉ url)
    (hquery : ofChar '?' ∉ url) : pathSegments url = url.splitOn (ofChar '/') := by
  rw [pathSegments, withoutFragment, takeWhile_ne_eq_self hfragment,
    takeWhile_ne_eq_self hquery]

theorem queryText_eq_none {url : PyStr} (hfragment : ofChar '#' ∉ url)
    (hquery : ofChar '?' ∉ url) : queryText url = none := by
  have hdrop : url.dropWhile (fun point => point != ofChar '?') = [] := by
    rw [List.dropWhile_eq_nil_iff]
    intro point hpoint
    exact bne_iff_ne.mpr fun heq => hquery (heq ▸ hpoint)
  rw [queryText, withoutFragment, takeWhile_ne_eq_self hfragment, hdrop]

theorem queryText_append {path query : PyStr}
    (hfragment : ofChar '#' ∉ path ++ ofChar '?' :: query) (hpath : ofChar '?' ∉ path) :
    queryText (path ++ ofChar '?' :: query) = some query := by
  rw [queryText, withoutFragment, takeWhile_ne_eq_self hfragment, dropWhile_ne_append hpath]

theorem splitParameter_append {name : PyStr} (hname : ofChar '=' ∉ name) (value : PyStr) :
    splitParameter (name ++ ofChar '=' :: value) = (name, value) := by
  rw [splitParameter, takeWhile_ne_append hname, dropWhile_ne_append hname]
  rfl

/-! ## Filter lookups -/

/-- What a filter URL has to be for the lookup to be about `value` and nothing
else. -/
structure CarriesLiteral [PyRuntime] (identity : IdentityAttribute)
    (value literal url : PyStr) : Prop where
  literal_eq : filterLiteral value = some literal
  url_eq : filterUrl identity value = some url
  quoted : Quoted literal
  decodes : ∀ limit, (unquote literal).map (loadsText limit) = some (.ok (.str value))
  parameters : queryParameters url =
    [(ofString "filter", identity.name ++ ofString "%20eq%20" ++ literal),
      (ofString "count", ofString "2")]
  no_fragment : withoutFragment url = url

/-- The characters that end a part of a URL. -/
def delimiters : List Char := ['/', '?', '#', '\\', '&', '=']

theorem delimiter_not_mem {text : PyStr} (htext : Quoted text) :
    ∀ char ∈ delimiters, ofChar char ∉ text := by
  have hreserved : (delimiters.all fun char =>
      isUnreserved char.toNat == false && char != '%') = true := by
    decide
  intro char hchar
  have hclear := List.all_eq_true.mp hreserved char hchar
  rw [Bool.and_eq_true, beq_iff_eq, bne_iff_ne] at hclear
  exact htext.not_mem hclear.1 hclear.2

/-- What the filter parameter is set to. -/
def filterValue (identity : IdentityAttribute) (literal : PyStr) : PyStr :=
  identity.name ++ ofString "%20eq%20" ++ literal

theorem delimiter_not_mem_filterValue (identity : IdentityAttribute) {literal : PyStr}
    (hliteral : Quoted literal) :
    ∀ char ∈ delimiters, ofChar char ∉ filterValue identity literal := by
  intro char hchar hmem
  have hinitial : (delimiters.all fun char =>
      !(identity.name ++ ofString "%20eq%20").contains (ofChar char)) = true := by
    cases identity <;> decide +kernel
  have hclear := List.all_eq_true.mp hinitial char hchar
  rw [Bool.not_eq_true', List.contains_eq_mem, decide_eq_false_iff_not] at hclear
  rcases List.mem_append.mp hmem with hfirst | hrest
  · exact hclear hfirst
  · exact delimiter_not_mem hliteral char hchar hrest

theorem filterUrl_eq (identity : IdentityAttribute) {value literal : PyStr}
    (hliteral : filterLiteral value = some literal) :
    filterUrl identity value =
      some ((appleScimBase ++ ofString "/Users") ++ ofChar '?' ::
        ((ofString "filter" ++ ofChar '=' :: filterValue identity literal) ++
          ofChar '&' :: ofString "count=2")) := by
  have hpath : ofString "/Users?filter=" =
      ofString "/Users" ++ ofChar '?' :: (ofString "filter" ++ [ofChar '=']) := by
    decide +kernel
  have hcount : ofString "&count=2" = ofChar '&' :: ofString "count=2" := by
    decide +kernel
  rw [filterUrl, hliteral, Option.map_some, hpath, hcount]
  simp only [filterValue, List.append_assoc, List.cons_append, List.nil_append]

/-- A filter URL with a quotable literal is about this literal only. -/
theorem carriesLiteral [PyRuntime] (identity : IdentityAttribute) {value literal : PyStr}
    (hliteral : filterLiteral value = some literal) :
    ∃ url, CarriesLiteral identity value literal url := by
  have hquoted : Quoted literal := quoted_quote hliteral
  have hvalue := delimiter_not_mem_filterValue identity hquoted
  have hpath : ofChar '?' ∉ appleScimBase ++ ofString "/Users" ∧
      ofChar '#' ∉ appleScimBase ++ ofString "/Users" := by
    decide +kernel
  have hname : ofChar '=' ∉ ofString "filter" ∧ ofChar '&' ∉ ofString "filter" ∧
      ofChar '#' ∉ ofString "filter" := by
    decide +kernel
  have hcount : ofChar '&' ∉ ofString "count=2" ∧ ofChar '#' ∉ ofString "count=2" ∧
      splitParameter (ofString "count=2") = (ofString "count", ofString "2") := by
    decide +kernel
  have hampersand : ofChar '&' ∉
      ofString "filter" ++ ofChar '=' :: filterValue identity literal :=
    not_mem_join hname.2.1 (by decide) (hvalue '&' (by decide))
  have hhash : ofChar '#' ∉ (appleScimBase ++ ofString "/Users") ++ ofChar '?' ::
      ((ofString "filter" ++ ofChar '=' :: filterValue identity literal) ++
        ofChar '&' :: ofString "count=2") := by
    apply not_mem_join hpath.2 (by decide)
    apply not_mem_join _ (by decide) hcount.2.1
    exact not_mem_join hname.2.2 (by decide) (hvalue '#' (by decide))
  refine ⟨_, hliteral, filterUrl_eq identity hliteral, hquoted, ?_, ?_,
    takeWhile_ne_eq_self hhash⟩
  · intro limit
    rw [unquote_quote hliteral, Option.map_some, loadsText_dumpsPlain]
  · rw [queryParameters, queryText_append hhash hpath.1]
    dsimp only
    rw [List.splitOn_append_cons_self_of_not_mem hampersand,
      List.splitOn_eq_singleton hcount.1, List.map_cons, List.map_singleton,
      splitParameter_append hname.1, hcount.2.2]
    rfl

/-! ## Requests about one account -/

/-- What the URL of an account has to be for requests to reach this account and
no other resource. -/
structure AppendsSegment (userId segment url : PyStr) : Prop where
  url_eq : userUrlText userId = some url
  segments : pathSegments url =
    pathSegments (appleScimBase ++ ofString "/Users") ++ [segment]
  no_query : queryText url = none
  no_fragment : withoutFragment url = url
  not_dot : segment ≠ ofString "." ∧ segment ≠ ofString ".."
  no_delimiter : ∀ char ∈ ['/', '?', '#', '\\'], ofChar char ∉ segment
  decodes : unquote segment = some userId

theorem appendsSegment {userId segment : PyStr}
    (hsafe : isSafeUserId (some (.str userId)) = true) (hquote : quote userId = some segment) :
    ∃ url, AppendsSegment userId segment url := by
  have hquoted : Quoted segment := quoted_quote hquote
  have hclear := delimiter_not_mem hquoted
  have hdecodes := unquote_quote hquote
  have hbase : ofChar '?' ∉ appleScimBase ++ ofString "/Users" ∧
      ofChar '#' ∉ appleScimBase ++ ofString "/Users" := by
    decide +kernel
  have hslash : ofString "/Users/" = ofString "/Users" ++ [ofChar '/'] := by
    decide +kernel
  have hurl : userUrlText userId =
      some ((appleScimBase ++ ofString "/Users") ++ ofChar '/' :: segment) := by
    rw [userUrlText, hquote, Option.map_some, hslash]
    simp only [List.append_assoc, List.singleton_append]
  have hquery : ofChar '?' ∉ (appleScimBase ++ ofString "/Users") ++ ofChar '/' :: segment :=
    not_mem_join hbase.1 (by decide) (hclear '?' (by decide))
  have hhash : ofChar '#' ∉ (appleScimBase ++ ofString "/Users") ++ ofChar '/' :: segment :=
    not_mem_join hbase.2 (by decide) (hclear '#' (by decide))
  have hdots : userId ≠ ofString "." ∧ userId ≠ ofString ".." := by
    constructor <;>
      · rintro rfl
        exact absurd hsafe (by decide +kernel)
  refine ⟨_, hurl, ?_, queryText_eq_none hhash hquery, takeWhile_ne_eq_self hhash, ?_, ?_,
    hdecodes⟩
  · rw [pathSegments_eq hhash hquery, pathSegments_eq hbase.2 hbase.1,
      List.splitOn_append_cons_self, List.splitOn_eq_singleton (hclear '/' (by decide))]
  · constructor
    · rintro rfl
      have hdot : unquote (ofString ".") = some (ofString ".") := by decide +kernel
      exact hdots.1 (Option.some.inj (hdecodes.symm.trans hdot))
    · rintro rfl
      have hdot : unquote (ofString "..") = some (ofString "..") := by decide +kernel
      exact hdots.2 (Option.some.inj (hdecodes.symm.trans hdot))
  · intro char hchar
    have hsubset : ['/', '?', '#', '\\'] ⊆ delimiters := List.subset_append_left _ ['&', '=']
    exact hclear char (hsubset hchar)

/-! ## The requests of the client -/

theorem filterLiteral_isSome_iff {value : PyStr} :
    (filterLiteral value).isSome ↔ encodable value = true := by
  rw [filterLiteral, quote_isSome_iff, encodable_dumpsPlain]

/-- Literals carry every value that UTF-8 can encode, URLs carry exactly the safe
ids that UTF-8 can encode, and no two ids share a URL. -/
theorem scimUrls_faithful_iff [PyRuntime] :
    (∀ identity value, encodable value = true →
      ∃ literal url, CarriesLiteral identity value literal url) ∧
    (∀ userId, isSafeUserId (some (.str userId)) = true →
      ((∃ segment url, AppendsSegment userId segment url) ↔ encodable userId = true)) ∧
    ∀ left right url, userUrlText left = some url → userUrlText right = some url →
      left = right := by
  refine ⟨?_, ?_, ?_⟩
  · intro identity value hvalue
    obtain ⟨literal, hliteral⟩ := Option.isSome_iff_exists.mp
      (filterLiteral_isSome_iff.mpr hvalue)
    exact ⟨literal, carriesLiteral identity hliteral⟩
  · intro userId hsafe
    constructor
    · intro hsegment
      obtain ⟨segment, url, happends⟩ := hsegment
      apply quote_isSome_iff.mp
      rw [← Option.isSome_map, ← userUrlText, happends.url_eq]
      rfl
    · intro hencodable
      obtain ⟨segment, hquote⟩ := Option.isSome_iff_exists.mp
        (quote_isSome_iff.mpr hencodable)
      exact ⟨segment, appendsSegment hsafe hquote⟩
  · intro left right url hleft hright
    obtain ⟨leftSegment, hleftQuote, hleftUrl⟩ := Option.map_eq_some_iff.mp hleft
    obtain ⟨rightSegment, hrightQuote, hrightUrl⟩ := Option.map_eq_some_iff.mp hright
    have hsegment : leftSegment = rightSegment :=
      List.append_cancel_left (hleftUrl.trans hrightUrl.symm)
    exact quote_inj hleftQuote (hsegment ▸ hrightQuote)

/-- An id that is an unpaired surrogate is accepted and has no URL. -/
theorem surrogateId_has_no_url :
    isSafeUserId (some (.str [0xD800])) = true ∧
      ¬∃ segment url, AppendsSegment [0xD800] segment url := by
  constructor
  · decide +kernel
  · intro hsegment
    obtain ⟨segment, url, happends⟩ := hsegment
    have hnone : userUrlText [0xD800] = none := rfl
    rw [happends.url_eq] at hnone
    cases hnone

end SsfTransmitter.Scim
