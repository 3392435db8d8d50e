import SsfTransmitter.Scim.TokenRotation

/-!
# Responses of the token endpoint

What one call of `_refresh` and of `_exchange_authorization_code_locked` makes of a
response, from the request to the stored row.
-/

namespace SsfTransmitter.Scim

open SsfTransmitter.Python

/-! ## One call -/

/-- How `_exchange_authorization_code_locked` ends. -/
inductive ExchangeExit where
  | authorized (expiresIn : ℤ) (hasRefreshToken : Bool)
  | httpException (statusCode : ℕ) (detail : String)
  /-- any other exception -/
  | raised
  deriving DecidableEq

section Calls

variable (runtime : TokenRuntime)

/-- `_refresh`, with the stored row before and after it. -/
def refresh (refreshToken : Option PyStr) (row : Option TokenRow) (outcome : Outcome)
    (now : ℤ) : TokenExit × Option TokenRow :=
  match refreshToken with
  | none | some [] => (.token none, row)
  | some refreshToken =>
    match refreshAnswered runtime outcome with
    | .error exit => (exit, row)
    | .ok received =>
      match saveTokens runtime row received now with
      | none => (.raised, row)
      | some saved => (exitSaved (.refreshToken refreshToken) received, some saved)

/-- `_exchange_authorization_code_locked` up to `save_tokens`. -/
def exchangeReply : Outcome → Except ExchangeExit ReceivedTokens
  | .networkError =>
    .error (.httpException 502 "Network error contacting Apple token endpoint")
  | .refused => .error .raised
  | .response response =>
    if response.status ≠ 200 then
      .error (.httpException 502 s!"Apple token endpoint returned {response.status}")
    else
      match response.json with
      | .ok (.dict data) =>
        match expiresIn runtime data with
        | .ok expiresIn =>
          let accessToken := Dict.getD data "access_token" .null
          if accessToken.truthy then
            .ok ⟨accessToken, Dict.getD data "refresh_token" .null, expiresIn⟩
          else .error (.httpException 502 "Apple did not return an access_token")
        | .error _ => .error .raised
      -- `resp.json()` raises, or `data.get` on something else than a dictionary
      | _ => .error .raised

/-- `_exchange_authorization_code_locked`, with the stored row before and after it. -/
def exchange (row : Option TokenRow) (outcome : Outcome) (now : ℤ) :
    ExchangeExit × Option TokenRow :=
  match exchangeReply runtime outcome with
  | .error exit => (exit, row)
  | .ok received =>
    match saveTokens runtime row received now with
    | none => (.raised, row)
    | some saved =>
      (.authorized received.expiresIn received.refreshToken.truthy, some saved)

/-- The interleaved calls do not tell one exception from another. -/
theorem exchangeAnswered_eq (outcome : Outcome) :
    exchangeAnswered runtime outcome =
      (exchangeReply runtime outcome).mapError fun _ => .raised := by
  cases outcome with
  | networkError | refused => rfl
  | response response =>
      simp only [exchangeAnswered, exchangeReply]
      by_cases hstatus : response.status ≠ 200
      · rw [if_pos hstatus, if_pos hstatus]
        rfl
      · rw [if_neg hstatus, if_neg hstatus]
        cases response.json with
        | error error => rfl
        | ok value =>
            cases value with
            | dict data =>
                dsimp only
                cases expiresIn runtime data with
                | error error => rfl
                | ok expiresIn =>
                    dsimp only
                    split_ifs <;> rfl
            | _ => rfl

end Calls

/-! ## What is stored -/

section Stored

variable (runtime : TokenRuntime)

/-- The seconds that an access token lives: `expires_in` where that is a positive number,
else 3600. -/
def lifetime (data : Dict) : ℤ :=
  match runtime.int (Dict.getD data "expires_in" .null) with
  | .ok value => if 0 < value then value else 3600
  | .error _ => 3600

/-- `int(raw_expires)` raises no `OverflowError`: `expires_in` is not infinite. -/
def FiniteExpiry (data : Dict) : Prop :=
  runtime.int (Dict.getD data "expires_in" .null) ≠ .error .overflowError

/-- When a token counts as expired that lives some seconds from now on. -/
def expiresAt (now lifetime : ℤ) : ℤ :=
  now + lifetime - min 60 (max (lifetime / 2) 0)

variable {runtime} {data : Dict}

theorem lifetime_pos (runtime : TokenRuntime) (data : Dict) : 0 < lifetime runtime data := by
  rw [lifetime]
  split
  · split_ifs with hpositive
    · exact hpositive
    · norm_num
  · norm_num

theorem expiresIn_eq_ok (hfinite : FiniteExpiry runtime data) :
    expiresIn runtime data = .ok (lifetime runtime data) := by
  rw [FiniteExpiry] at hfinite
  rw [expiresIn, lifetime]
  cases hint : runtime.int (Dict.getD data "expires_in" .null) with
  | ok value => rfl
  | error error =>
      cases error with
      | typeOrValueError => rfl
      | overflowError => exact absurd hint hfinite

theorem expiresIn_eq_error (hinfinite : ¬ FiniteExpiry runtime data) :
    expiresIn runtime data = .error .overflowError := by
  rw [FiniteExpiry, not_not] at hinfinite
  rw [expiresIn, hinfinite]

theorem lt_expiresAt {now lifetime : ℤ} (hpos : 0 < lifetime) :
    now < expiresAt now lifetime := by
  rw [expiresAt]
  omega

theorem expiresAt_le (now lifetime : ℤ) : expiresAt now lifetime ≤ now + lifetime := by
  rw [expiresAt]
  omega

/-- What `save_tokens` needs in order to store a response. -/
theorem saveTokens_eq_some_iff {row : Option TokenRow} {received : ReceivedTokens} {now : ℤ}
    {saved : TokenRow} :
    saveTokens runtime row received now = some saved ↔
      ∃ accessToken refreshToken,
        columnText runtime received.accessToken = some (some accessToken) ∧
        columnText runtime received.refreshToken = some refreshToken ∧
        (fitsInteger (expiresAt now received.expiresIn) ∧ fitsInteger now) ∧
        saved = ⟨accessToken, refreshToken.or (row.bind TokenRow.refreshToken),
          expiresAt now received.expiresIn, now⟩ := by
  simp only [saveTokens, Option.bind_eq_bind, Option.bind_eq_some_iff, ← expiresAt.eq_1]
  constructor
  · rintro ⟨accessToken, haccess, refreshToken, hrefresh, hsaved⟩
    split_ifs at hsaved with hfits
    obtain ⟨accessToken, rfl, hsaved⟩ := Option.bind_eq_some_iff.mp hsaved
    exact ⟨accessToken, refreshToken, haccess, hrefresh, (Bool.and_eq_true _ _).mp hfits,
      (Option.some.inj hsaved).symm⟩
  · rintro ⟨accessToken, refreshToken, haccess, hrefresh, hfits, rfl⟩
    refine ⟨some accessToken, haccess, refreshToken, hrefresh, ?_⟩
    rw [if_pos ((Bool.and_eq_true _ _).mpr hfits)]
    rfl

/-- A moment before an expiry that SQLite stores can be stored itself. -/
theorem fitsInteger_now {now : ℕ} {lifetime : ℤ} (hpos : 0 < lifetime)
    (hfits : fitsInteger (expiresAt now lifetime) = true) : fitsInteger now = true := by
  have hlater : (now : ℤ) < expiresAt now lifetime := lt_expiresAt hpos
  simp only [fitsInteger, Bool.and_eq_true, decide_eq_true_eq] at hfits ⊢
  omega

end Stored

/-! ## Refreshing -/

section Refreshing

variable (runtime : TokenRuntime)

/-- The refresh token that a response gives replaces the stored one. -/
def Rotates (given : Json) (row : Option TokenRow) (saved : TokenRow) : Prop :=
  given = .null ∧ saved.refreshToken = row.bind TokenRow.refreshToken ∨
    ∃ text, given = .str text ∧ saved.refreshToken = some text

/-- A refresh ends without a token and leaves the row, or returns the token of the response
and has stored it, with an expiry after the save and within the token's life. -/
def FaithfulRefresh (row : Option TokenRow) (outcome : Outcome) (now : ℤ)
    (ended : TokenExit × Option TokenRow) : Prop :=
  ended = (.token none, row) ∨
    ∃ response data accessToken saved, outcome = .response response ∧
      response.json = .ok (.dict data) ∧
      Dict.getD data "access_token" .null = .str accessToken ∧
      ended = (.token (some accessToken), some saved) ∧
      saved.accessToken = accessToken ∧
      Rotates (Dict.getD data "refresh_token" .null) row saved ∧
      now < saved.expiresAt ∧ saved.expiresAt ≤ now + lifetime runtime data

/-- The access token of a response can be stored until it expires. -/
structure Storable (data : Dict) (accessToken : PyStr) (now : ℤ) : Prop where
  accessToken : encodable accessToken = true
  finite : FiniteExpiry runtime data
  fits : fitsInteger (expiresAt now (lifetime runtime data)) = true

/-- No refresh token, or one of text that SQLite stores. -/
def RefreshText (given : Json) : Prop :=
  given = .null ∨ ∃ text, given = .str text ∧ encodable text = true

/-- The request can be sent; and a JSON body of status 200 is an object whose tokens, where
it has an access token, can be stored as they are. -/
def Contained (outcome : Outcome) (now : ℤ) : Prop :=
  match outcome with
  | .networkError => True
  | .refused => False
  | .response response =>
    response.status = 200 → ∀ value, response.json = .ok value →
      ∃ data, value = .dict data ∧ ∀ accessToken, accessToken ≠ [] →
        Dict.getD data "access_token" .null = .str accessToken →
        Storable runtime data accessToken now ∧
          RefreshText (Dict.getD data "refresh_token" .null)

variable {runtime} {row : Option TokenRow} {data : Dict} {accessToken : PyStr} {now : ℕ}

theorem rotates_of_refreshText {given : Json} (hgiven : RefreshText given) :
    ∃ refreshToken, columnText runtime given = some refreshToken ∧
      ∀ (row : Option TokenRow) (saved : TokenRow), saved.refreshToken =
        refreshToken.or (row.bind TokenRow.refreshToken) → Rotates given row saved := by
  rcases hgiven with rfl | ⟨text, rfl, hencodable⟩
  · exact ⟨none, rfl, fun row saved hsaved => .inl ⟨rfl, hsaved⟩⟩
  · exact ⟨some text, if_pos hencodable, fun row saved hsaved => .inr ⟨text, rfl, hsaved⟩⟩

theorem refreshText_of_rotates {given : Json} {saved : TokenRow} {refreshToken : Option PyStr}
    (hcolumn : columnText runtime given = some refreshToken) (hrotates : Rotates given row saved) :
    RefreshText given := by
  rcases hrotates with ⟨hnull, -⟩ | ⟨text, rfl, -⟩
  · exact .inl hnull
  · rw [columnText] at hcolumn
    split_ifs at hcolumn with hencodable
    exact .inr ⟨text, rfl, hencodable⟩

/-- A JSON object of status 200 that has an access token. -/
structure Grants (outcome : Outcome) (data : Dict) (accessToken : PyStr) : Prop where
  response : ∃ response, outcome = .response response ∧ response.status = 200 ∧
    response.json = .ok (.dict data)
  token : Dict.getD data "access_token" .null = .str accessToken
  nonempty : accessToken ≠ []

theorem Grants.refreshAnswered {outcome : Outcome} (hgrants : Grants outcome data accessToken)
    (hfinite : FiniteExpiry runtime data) :
    refreshAnswered runtime outcome =
      .ok ⟨.str accessToken, Dict.getD data "refresh_token" .null, lifetime runtime data⟩ := by
  obtain ⟨⟨response, rfl, hstatus, hjson⟩, haccess, hnonempty⟩ := hgrants
  rw [Scim.refreshAnswered, if_neg (not_not_intro hstatus), hjson]
  dsimp only
  rw [haccess]
  dsimp only
  rw [if_neg (by simpa using hnonempty), expiresIn_eq_ok hfinite]

theorem Grants.refreshAnswered_infinite {outcome : Outcome}
    (hgrants : Grants outcome data accessToken) (hinfinite : ¬ FiniteExpiry runtime data) :
    Scim.refreshAnswered runtime outcome = .error .raised := by
  obtain ⟨⟨response, rfl, hstatus, hjson⟩, haccess, hnonempty⟩ := hgrants
  rw [Scim.refreshAnswered, if_neg (not_not_intro hstatus), hjson]
  dsimp only
  rw [haccess]
  dsimp only
  rw [if_neg (by simpa using hnonempty), expiresIn_eq_error hinfinite]

/-- Without an access token there is nothing to store. -/
theorem refreshAnswered_eq_none {response : Response} (hstatus : response.status = 200)
    (hjson : response.json = .ok (.dict data))
    (hnone : ∀ accessToken, accessToken ≠ [] →
      Dict.getD data "access_token" .null ≠ .str accessToken) :
    refreshAnswered runtime (.response response) = .error (.token none) := by
  rw [refreshAnswered, if_neg (not_not_intro hstatus), hjson]
  dsimp only
  cases haccess : Dict.getD data "access_token" .null with
  | str accessToken =>
      have hempty : accessToken = [] := not_not.mp fun hne => hnone accessToken hne haccess
      rw [hempty]
      rfl
  | _ => rfl

/-- What a 200 response with a JSON body comes to. -/
theorem refreshAnswered_not_dict {response : Response} {value : Json}
    (hstatus : response.status = 200) (hjson : response.json = .ok value)
    (hvalue : ∀ data, value ≠ .dict data) :
    refreshAnswered runtime (.response response) = .error .raised := by
  rw [refreshAnswered, if_neg (not_not_intro hstatus), hjson]
  cases value with
  | dict data => exact absurd rfl (hvalue data)
  | _ => rfl

section Sent

variable {token : PyStr} {outcome : Outcome}

theorem refresh_of_error (htoken : token ≠ []) {exit : TokenExit}
    (hanswered : refreshAnswered runtime outcome = .error exit) :
    refresh runtime (some token) row outcome now = (exit, row) := by
  cases token with
  | nil => exact absurd rfl htoken
  | cons first rest =>
      rw [refresh, hanswered]
      rintro ⟨⟩

theorem refresh_of_ok (htoken : token ≠ []) {received : ReceivedTokens}
    (hanswered : refreshAnswered runtime outcome = .ok received) :
    refresh runtime (some token) row outcome now =
      (saveTokens runtime row received now).elim (.raised, row) fun saved =>
        (exitSaved (.refreshToken token) received, some saved) := by
  cases token with
  | nil => exact absurd rfl htoken
  | cons first rest =>
      rw [refresh, hanswered]
      · dsimp only
        cases saveTokens runtime row received now <;> rfl
      · rintro ⟨⟩

/-- What becomes of an access token that a response grants. -/
theorem Grants.refresh (hgrants : Grants outcome data accessToken) (htoken : token ≠ [])
    (hfinite : FiniteExpiry runtime data) :
    refresh runtime (some token) row outcome now =
      (saveTokens runtime row ⟨.str accessToken, Dict.getD data "refresh_token" .null,
          lifetime runtime data⟩ now).elim (.raised, row) fun saved =>
        (.token (some accessToken), some saved) :=
  refresh_of_ok htoken (hgrants.refreshAnswered hfinite)

theorem contained_of_faithful (htoken : token ≠ [])
    (hfaithful : FaithfulRefresh runtime row outcome now
      (refresh runtime (some token) row outcome now)) : Contained runtime outcome now := by
  -- an exception is not faithful
  have hreturns : refresh runtime (some token) row outcome now ≠ (.raised, row) := by
    intro hraised
    rw [hraised] at hfaithful
    rcases hfaithful with hnone | ⟨response, data, accessToken, saved, -, -, -, hended, -⟩
    · cases (Prod.mk.inj hnone).1
    · cases (Prod.mk.inj hended).1
  cases outcome with
  | networkError => trivial
  | refused => exact hreturns (refresh_of_error htoken rfl)
  | response response =>
      intro hstatus value hjson
      have hdict : ∃ data, value = .dict data := by
        by_contra hnone
        exact hreturns (refresh_of_error htoken (refreshAnswered_not_dict hstatus hjson
          fun data heq => hnone ⟨data, heq⟩))
      obtain ⟨data, rfl⟩ := hdict
      refine ⟨data, rfl, fun accessToken hnonempty haccess => ?_⟩
      have hgrants : Grants (.response response) data accessToken :=
        ⟨⟨response, rfl, hstatus, hjson⟩, haccess, hnonempty⟩
      have hfinite : FiniteExpiry runtime data := by
        by_contra hinfinite
        exact hreturns (refresh_of_error htoken (hgrants.refreshAnswered_infinite hinfinite))
      rw [hgrants.refresh htoken hfinite] at hfaithful hreturns
      cases hsaved : saveTokens runtime row ⟨.str accessToken,
          Dict.getD data "refresh_token" .null, lifetime runtime data⟩ now with
      | none =>
          rw [hsaved] at hreturns
          exact absurd rfl hreturns
      | some saved =>
          obtain ⟨text, refreshToken, htext, hcolumn, hfits, rfl⟩ :=
            saveTokens_eq_some_iff.mp hsaved
          rw [columnText] at htext
          split_ifs at htext with hencodable
          rw [hsaved] at hfaithful
          rcases hfaithful with hnone | ⟨_, other, _, _, houtcome, hother, -, -, -, hrotates, -⟩
          · cases (Prod.mk.inj hnone).1
          · obtain rfl := Outcome.response.inj houtcome
            obtain rfl := Json.dict.inj (Except.ok.inj (hjson.symm.trans hother))
            exact ⟨⟨hencodable, hfinite, hfits.1⟩, refreshText_of_rotates hcolumn hrotates⟩

theorem faithful_of_contained (htoken : token ≠ []) (hcontained : Contained runtime outcome now) :
    FaithfulRefresh runtime row outcome now (refresh runtime (some token) row outcome now) := by
  cases outcome with
  | networkError => exact .inl (refresh_of_error htoken rfl)
  | refused => exact absurd hcontained id
  | response response =>
      by_cases hstatus : response.status = 200
      · cases hjson : response.json with
        | error error =>
            refine .inl (refresh_of_error htoken ?_)
            rw [refreshAnswered, if_neg (not_not_intro hstatus), hjson]
        | ok value =>
            obtain ⟨data, rfl, hstorable⟩ := hcontained hstatus value hjson
            by_cases hgranted : ∃ accessToken, accessToken ≠ [] ∧
                Dict.getD data "access_token" .null = .str accessToken
            · obtain ⟨accessToken, hnonempty, haccess⟩ := hgranted
              obtain ⟨hstore, hrefresh⟩ := hstorable accessToken hnonempty haccess
              have hgrants : Grants (.response response) data accessToken :=
                ⟨⟨response, rfl, hstatus, hjson⟩, haccess, hnonempty⟩
              obtain ⟨refreshToken, hcolumn, hrotates⟩ := rotates_of_refreshText hrefresh
              have hpos := lifetime_pos runtime data
              have hsaved : saveTokens runtime row ⟨.str accessToken,
                  Dict.getD data "refresh_token" .null, lifetime runtime data⟩ now = some _ :=
                saveTokens_eq_some_iff.mpr ⟨accessToken, refreshToken,
                  if_pos hstore.accessToken, hcolumn,
                  ⟨hstore.fits, fitsInteger_now hpos hstore.fits⟩, rfl⟩
              rw [hgrants.refresh htoken hstore.finite, hsaved]
              exact .inr ⟨response, data, accessToken, _, rfl, hjson, haccess, rfl, rfl,
                hrotates _ _ rfl, lt_expiresAt hpos, expiresAt_le _ _⟩
            · refine .inl (refresh_of_error htoken (refreshAnswered_eq_none hstatus hjson ?_))
              exact fun accessToken hnonempty haccess =>
                hgranted ⟨accessToken, hnonempty, haccess⟩
      · refine .inl (refresh_of_error htoken ?_)
        rw [refreshAnswered, if_pos hstatus]

end Sent

/-- `_refresh` returns, and is faithful to the response, exactly where it sends nothing or
the outcome is contained. -/
theorem refresh_faithful_iff (runtime : TokenRuntime) (refreshToken : Option PyStr)
    (row : Option TokenRow) (outcome : Outcome) (now : ℕ) :
    FaithfulRefresh runtime row outcome now (refresh runtime refreshToken row outcome now) ↔
      refreshToken = none ∨ refreshToken = some [] ∨ Contained runtime outcome now := by
  rcases refreshToken with _ | token
  · exact iff_of_true (.inl rfl) (.inl rfl)
  · by_cases htoken : token = []
    · subst htoken
      exact iff_of_true (.inl rfl) (.inr (.inl rfl))
    · constructor
      · exact fun hfaithful => .inr (.inr (contained_of_faithful htoken hfaithful))
      · rintro (hnone | hempty | hcontained)
        · cases hnone
        · exact absurd (Option.some.inj hempty) htoken
        · exact faithful_of_contained htoken hcontained

end Refreshing

/-- Tokens of which the access token is said to live for some 290 billion years. -/
def endlessTokens : Outcome :=
  .response ⟨200, .json (.dict [("access_token", .str "new-access"),
    ("refresh_token", .str "rotated"), ("expires_in", .int (2 ^ 63))]), true⟩

/-- A rotated token is dropped where its expiry does not fit the column. -/
theorem refresh_drops_rotated :
    ¬ ∀ (refreshToken : Option PyStr) (row : Option TokenRow) (outcome : Outcome) (now : ℕ),
      outcome ≠ .refused → FaithfulRefresh sampleRuntime row outcome now
        (refresh sampleRuntime refreshToken row outcome now) := by
  intro hclaim
  have hended : refresh sampleRuntime (some "old-refresh") (some expiredRow) endlessTokens
      (100 : ℕ) = (.raised, some expiredRow) := by
    decide +kernel
  have hfaithful := hclaim (some "old-refresh") (some expiredRow) endlessTokens 100 (by decide)
  rw [hended] at hfaithful
  rcases hfaithful with hnone | ⟨_, _, _, _, -, -, -, hsaved, -⟩
  · cases (Prod.mk.inj hnone).1
  · cases (Prod.mk.inj hsaved).1

/-! ## Two readers of one response -/

section Readers

/-- `_refresh` accepts the response. -/
def TokenRefreshed (ended : TokenExit × Option TokenRow) : Prop :=
  ∃ accessToken, ended.1 = .token (some accessToken)

/-- The exchange accepts the response. -/
def Authorized (ended : ExchangeExit × Option TokenRow) : Prop :=
  ∃ expiresIn hasRefreshToken, ended.1 = .authorized expiresIn hasRefreshToken

variable (runtime : TokenRuntime)

/-- Both readers accept a response and store the same tokens, or one returns `None`, the
other fails with status 502, and the row is left. -/
structure ReadAlike (row : Option TokenRow) (outcome : Outcome)
    (refreshed : TokenExit × Option TokenRow) (exchanged : ExchangeExit × Option TokenRow) :
    Prop where
  accepts : TokenRefreshed refreshed ↔ Authorized exchanged
  stores : TokenRefreshed refreshed → refreshed.2 = exchanged.2 ∧
    ∃ received, refreshAnswered runtime outcome = .ok received ∧
      exchangeReply runtime outcome = .ok received
  refused : ¬ TokenRefreshed refreshed → refreshed = (.token none, row)
  rejected : ¬ Authorized exchanged →
    ∃ detail, exchanged = (.httpException 502 detail, row)

/-- A JSON object with a finite expiry, whose access token is missing, falsy or text that
can be stored with the refresh token. -/
def Understood (body : Body) (now : ℤ) : Prop :=
  ∃ data, body = .json (.dict data) ∧ FiniteExpiry runtime data ∧
    ((Dict.getD data "access_token" .null).truthy = false ∨
      ∃ accessToken, Dict.getD data "access_token" .null = .str accessToken ∧
        Storable runtime data accessToken now ∧
        columnText runtime (Dict.getD data "refresh_token" .null) ≠ none)

variable {runtime} {row : Option TokenRow} {body : Body} {readable : Bool} {data : Dict}
variable {now : ℕ} {token : PyStr}

variable (readable) in
/-- What the exchange makes of a JSON object. -/
theorem exchangeReply_dict (hfinite : FiniteExpiry runtime data) :
    exchangeReply runtime (.response ⟨200, .json (.dict data), readable⟩) =
      if (Dict.getD data "access_token" .null).truthy then
        .ok ⟨Dict.getD data "access_token" .null, Dict.getD data "refresh_token" .null,
          lifetime runtime data⟩
      else .error (.httpException 502 "Apple did not return an access_token") := by
  rw [exchangeReply, if_neg (not_not_intro rfl)]
  simp only [Response.json, expiresIn_eq_ok hfinite]

theorem exchangeReply_infinite (hinfinite : ¬ FiniteExpiry runtime data) :
    exchangeReply runtime (.response ⟨200, .json (.dict data), readable⟩) = .error .raised := by
  rw [exchangeReply, if_neg (not_not_intro rfl)]
  simp only [Response.json, expiresIn_eq_error hinfinite]

theorem exchangeReply_not_dict (hbody : ∀ data, body ≠ .json (.dict data)) :
    exchangeReply runtime (.response ⟨200, body, readable⟩) = .error .raised := by
  rw [exchangeReply, if_neg (not_not_intro rfl)]
  cases body with
  | invalid | tooDeep => rfl
  | json value =>
      cases value with
      | dict data => exact absurd rfl (hbody data)
      | _ => rfl

theorem exchange_of_error {outcome : Outcome} {exit : ExchangeExit}
    (hreply : exchangeReply runtime outcome = .error exit) :
    exchange runtime row outcome now = (exit, row) := by
  rw [exchange, hreply]

theorem exchange_of_ok {outcome : Outcome} {received : ReceivedTokens}
    (hreply : exchangeReply runtime outcome = .ok received) :
    exchange runtime row outcome now =
      (saveTokens runtime row received now).elim (.raised, row) fun saved =>
        (.authorized received.expiresIn received.refreshToken.truthy, some saved) := by
  rw [exchange, hreply]
  dsimp only
  cases saveTokens runtime row received now <;> rfl

theorem not_truthy_iff_of_str {accessToken : PyStr} :
    (Json.str accessToken).truthy = false ↔ accessToken = [] := by
  simp [Json.truthy]

section Outcomes

variable {outcome : Outcome} {refreshed : TokenExit × Option TokenRow}
  {exchanged : ExchangeExit × Option TokenRow}

theorem ReadAlike.of_refused {detail : String} (hrefreshed : refreshed = (.token none, row))
    (hexchanged : exchanged = (.httpException 502 detail, row)) :
    ReadAlike runtime row outcome refreshed exchanged := by
  subst hrefreshed hexchanged
  have hnone : ¬ TokenRefreshed (.token none, row) := by
    rintro ⟨accessToken, ⟨⟩⟩
  have hfailed : ¬ Authorized (.httpException 502 detail, row) := by
    rintro ⟨expiresIn, hasRefreshToken, ⟨⟩⟩
  exact ⟨iff_of_false hnone hfailed, fun haccepted => absurd haccepted hnone, fun _ => rfl,
    fun _ => ⟨detail, rfl⟩⟩

theorem ReadAlike.of_accepted {accessToken : PyStr} {saved : Option TokenRow} {expiresIn : ℤ}
    {hasRefreshToken : Bool} {received : ReceivedTokens}
    (hrefreshed : refreshed = (.token (some accessToken), saved))
    (hexchanged : exchanged = (.authorized expiresIn hasRefreshToken, saved))
    (hreceived : refreshAnswered runtime outcome = .ok received)
    (hreply : exchangeReply runtime outcome = .ok received) :
    ReadAlike runtime row outcome refreshed exchanged := by
  subst hrefreshed hexchanged
  have haccepted : TokenRefreshed (.token (some accessToken), saved) := ⟨accessToken, rfl⟩
  have hauthorized : Authorized (.authorized expiresIn hasRefreshToken, saved) :=
    ⟨expiresIn, hasRefreshToken, rfl⟩
  exact ⟨iff_of_true haccepted hauthorized, fun _ => ⟨rfl, received, hreceived, hreply⟩,
    fun hnot => absurd haccepted hnot, fun hnot => absurd hauthorized hnot⟩

/-- No exception other than status 502 ends an exchange that is read alike. -/
theorem ReadAlike.not_raised (halike : ReadAlike runtime row outcome refreshed exchanged) :
    exchanged.1 ≠ .raised ∧ refreshed.1 ≠ .raised := by
  constructor
  · intro hraised
    have hfailed : ¬ Authorized exchanged := by
      rintro ⟨expiresIn, hasRefreshToken, hauthorized⟩
      rw [hraised] at hauthorized
      cases hauthorized
    obtain ⟨detail, hexchanged⟩ := halike.rejected hfailed
    rw [hexchanged] at hraised
    cases hraised
  · intro hraised
    have hnone : ¬ TokenRefreshed refreshed := by
      rintro ⟨accessToken, haccepted⟩
      rw [hraised] at haccepted
      cases haccepted
    rw [halike.refused hnone] at hraised
    cases hraised

end Outcomes

theorem readAlike_of_understood (htoken : token ≠ []) (hbody : Understood runtime body now) :
    ReadAlike runtime row (.response ⟨200, body, readable⟩)
      (refresh runtime (some token) row (.response ⟨200, body, readable⟩) now)
      (exchange runtime row (.response ⟨200, body, readable⟩) now) := by
  obtain ⟨data, rfl, hfinite, haccess⟩ := hbody
  have hreply := exchangeReply_dict readable hfinite
  by_cases htruthy : (Dict.getD data "access_token" .null).truthy = true
  · obtain ⟨accessToken, htext, hstorable, hrefresh⟩ :=
      haccess.resolve_left (by simp [htruthy])
    have hgrants : Grants (.response ⟨200, .json (.dict data), readable⟩) data accessToken := by
      refine ⟨⟨_, rfl, rfl, rfl⟩, htext, ?_⟩
      rintro rfl
      rw [htext] at htruthy
      exact Bool.false_ne_true htruthy
    rw [if_pos htruthy, htext] at hreply
    obtain ⟨refreshToken, hcolumn⟩ := Option.ne_none_iff_exists'.mp hrefresh
    have hsaved : saveTokens runtime row ⟨.str accessToken,
        Dict.getD data "refresh_token" .null, lifetime runtime data⟩ now = some _ :=
      saveTokens_eq_some_iff.mpr ⟨accessToken, refreshToken, if_pos hstorable.accessToken,
        hcolumn, ⟨hstorable.fits, fitsInteger_now (lifetime_pos runtime data) hstorable.fits⟩,
        rfl⟩
    have hrefreshed : refresh runtime (some token) row
        (.response ⟨200, .json (.dict data), readable⟩) now = _ :=
      hgrants.refresh htoken hfinite
    have hexchanged : exchange runtime row
        (.response ⟨200, .json (.dict data), readable⟩) now = _ :=
      exchange_of_ok hreply
    rw [hsaved] at hrefreshed hexchanged
    exact .of_accepted hrefreshed hexchanged (hgrants.refreshAnswered hfinite) hreply
  · rw [if_neg htruthy] at hreply
    refine .of_refused (refresh_of_error htoken (refreshAnswered_eq_none rfl rfl ?_))
      (exchange_of_error hreply)
    intro accessToken hnonempty htext
    rw [htext, Bool.not_eq_true, not_truthy_iff_of_str] at htruthy
    exact hnonempty htruthy

theorem understood_of_readAlike (htoken : token ≠ [])
    (halike : ReadAlike runtime row (.response ⟨200, body, readable⟩)
      (refresh runtime (some token) row (.response ⟨200, body, readable⟩) now)
      (exchange runtime row (.response ⟨200, body, readable⟩) now)) :
    Understood runtime body now := by
  obtain ⟨hexchange, hrefresh⟩ := halike.not_raised
  have hdict : ∃ data, body = .json (.dict data) := by
    by_contra hnone
    rw [exchange_of_error (exchangeReply_not_dict fun data heq => hnone ⟨data, heq⟩)]
      at hexchange
    exact hexchange rfl
  obtain ⟨data, rfl⟩ := hdict
  have hfinite : FiniteExpiry runtime data := by
    by_contra hinfinite
    rw [exchange_of_error (exchangeReply_infinite hinfinite)] at hexchange
    exact hexchange rfl
  refine ⟨data, rfl, hfinite, ?_⟩
  by_cases htruthy : (Dict.getD data "access_token" .null).truthy = true
  · refine .inr ?_
    have hreply := exchangeReply_dict readable hfinite
    rw [if_pos htruthy] at hreply
    rw [exchange_of_ok hreply] at halike hexchange
    -- the exchange has not raised, so the tokens were saved
    cases hsaved : saveTokens runtime row ⟨Dict.getD data "access_token" .null,
        Dict.getD data "refresh_token" .null, lifetime runtime data⟩ now with
    | none =>
        rw [hsaved] at hexchange
        exact absurd rfl hexchange
    | some saved =>
        rw [hsaved] at halike
        obtain ⟨accessToken, haccepted⟩ := halike.accepts.mpr ⟨_, _, rfl⟩
        by_cases htext : ∃ text, text ≠ [] ∧ Dict.getD data "access_token" .null = .str text
        · obtain ⟨text, -, htext⟩ := htext
          rw [htext] at hsaved
          obtain ⟨stored, refreshToken, hstored, hcolumn, hfits, -⟩ :=
            saveTokens_eq_some_iff.mp hsaved
          rw [columnText] at hstored
          split_ifs at hstored with hencodable
          refine ⟨text, htext, ⟨hencodable, hfinite, hfits.1⟩, ?_⟩
          rw [hcolumn]
          exact Option.some_ne_none _
        · -- otherwise the refresh would have returned `None`
          have hnone : refresh runtime (some token) row
              (.response ⟨200, .json (.dict data), readable⟩) now = (.token none, row) :=
            refresh_of_error htoken (refreshAnswered_eq_none rfl rfl
              fun text hnonempty heq => htext ⟨text, hnonempty, heq⟩)
          rw [hnone] at haccepted
          cases haccepted
  · exact .inl (Bool.not_eq_true _ ▸ htruthy)

/-- The two readers agree on a body exactly where it is understood. -/
theorem readAlike_iff (runtime : TokenRuntime) {token : PyStr} (htoken : token ≠ [])
    (row : Option TokenRow) (body : Body) (readable : Bool) (now : ℕ) :
    ReadAlike runtime row (.response ⟨200, body, readable⟩)
        (refresh runtime (some token) row (.response ⟨200, body, readable⟩) now)
        (exchange runtime row (.response ⟨200, body, readable⟩) now) ↔
      Understood runtime body now :=
  ⟨understood_of_readAlike htoken, readAlike_of_understood htoken⟩

/-- A rotated pair of tokens is saved by both. -/
theorem readAlike_iff_sample :
    let answer := tokenResponse "new-access" "rotated"
    ReadAlike sampleRuntime (some expiredRow) answer
        (refresh sampleRuntime (some "old-refresh") (some expiredRow) answer (100 : ℕ))
        (exchange sampleRuntime (some expiredRow) answer (100 : ℕ)) ∧
      Authorized (exchange sampleRuntime (some expiredRow) answer (100 : ℕ)) :=
  ⟨(readAlike_iff sampleRuntime (by decide) _ _ _ 100).mpr
    ⟨_, rfl, by rw [FiniteExpiry]; decide +kernel,
      .inr ⟨"new-access", rfl, ⟨by decide +kernel, by rw [FiniteExpiry]; decide +kernel,
        by decide +kernel⟩, by decide +kernel⟩⟩,
    3600, true, by decide +kernel⟩

/-- A body that is no JSON ends a refresh with `None`, and an exchange with an exception
that is not the status 502. -/
theorem not_readAlike_invalid :
    ¬ ∀ (token : PyStr) (row : Option TokenRow) (body : Body) (readable : Bool) (now : ℕ),
      token ≠ [] →
      ReadAlike sampleRuntime row (.response ⟨200, body, readable⟩)
        (refresh sampleRuntime (some token) row (.response ⟨200, body, readable⟩) now)
        (exchange sampleRuntime row (.response ⟨200, body, readable⟩) now) := by
  intro hclaim
  exact (hclaim "old-refresh" none .invalid true 100 (by decide)).not_raised.1 rfl

end Readers

end SsfTransmitter.Scim
