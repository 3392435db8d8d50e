import SsfTransmitter.Outbox.Pusher
import SsfTransmitter.Store.Schema

/-!
# Receiver endpoint URLs

`validate_receiver_endpoint_url`, which an endpoint passes before its stream is created
or patched, and the check of the stored endpoints when the process starts.
-/

namespace SsfTransmitter.Routes

open SsfTransmitter.Python
open SsfTransmitter.Store
open SsfTransmitter.Outbox

/-- The parts of a URL that the checks read; a part that is absent is empty. -/
structure ParsedUrl where
  scheme : String
  username : String
  password : String
  fragment : String
  hostname : String

/-- `urllib.parse.urlparse`, which raises with a reason, and `str.lower` on a host. -/
structure UrlLibrary where
  urlparse : String → Except String ParsedUrl
  lower : String → String

/-- `(urlparse(url).hostname or "").lower()`, unless parsing raises -/
def UrlLibrary.hostname (urls : UrlLibrary) (url : String) : Option String :=
  match urls.urlparse url with
  | .ok parsed => some (urls.lower parsed.hostname)
  | .error _ => none

/-- The `ValueError`s of `validate_receiver_endpoint_url`. -/
inductive EndpointError where
  | empty
  | notValid (reason : String)
  | notHttps (scheme : String)
  | credentials
  | fragment
  | noHost
  | blockedHostname (host : String)
  | blockedLiteral (host : String)
  | notAllowed (host : String)
  | unresolved (host : String)
  | blockedAddress (host ip : String)
  | unicodeError

/-- The text of an error; a `UnicodeError` of the resolver brings its own. -/
def EndpointError.message [PyRuntime] (unicodeReason : PyStr) : EndpointError → PyStr
  | .empty => "endpoint_url must not be empty"
  | .notValid reason => ofString ("endpoint_url is not a valid URL: " ++ reason)
  | .notHttps scheme =>
    ofString ("endpoint_url scheme must be 'https', got '" ++ scheme ++ "'")
  | .credentials => "endpoint_url must not contain credentials (user:pass@host)"
  | .fragment => "endpoint_url must not contain a fragment (#)"
  | .noHost => "endpoint_url has no host"
  | .blockedHostname host =>
    "endpoint_url host " ++ reprStr (ofString host) ++ " is not allowed"
  | .blockedLiteral host =>
    "endpoint_url host " ++ reprStr (ofString host) ++ " resolves to a blocked IP address"
  | .notAllowed host =>
    "endpoint_url host " ++ reprStr (ofString host) ++
      " is not in SSF_ALLOWED_RECEIVER_HOSTS allowlist"
  | .unresolved host =>
    "endpoint_url host " ++ reprStr (ofString host) ++
      " did not resolve to any IP address"
  | .blockedAddress host ip =>
    "endpoint_url host " ++ reprStr (ofString host) ++ " resolves to blocked IP " ++
      reprStr (ofString ip)
  | .unicodeError => unicodeReason

/-- `_BLOCKED_HOSTNAMES` -/
def blockedHostnames : List String :=
  ["localhost", "metadata.google.internal", "169.254.169.254"]

/-- `_reject_unsafe_scheme_or_parts` -/
def rejectUnsafeSchemeOrParts (parsed : ParsedUrl) : Except EndpointError Unit :=
  if parsed.scheme ≠ "https" then .error (.notHttps parsed.scheme)
  else if parsed.username ≠ "" ∨ parsed.password ≠ "" then .error .credentials
  else if parsed.fragment ≠ "" then .error .fragment
  else .ok ()

section Checks

variable (urls : UrlLibrary)

/-- `_reject_blocked_host_literal`; an address reads the same when it is written out. -/
def rejectBlockedHostLiteral (host : String) : Except EndpointError Unit :=
  if urls.lower host ∈ blockedHostnames then .error (.blockedHostname host)
  else if (ipAddress host).isSome && isBlockedIp host then .error (.blockedLiteral host)
  else .ok ()

/-- `_reject_blocked_resolved_ips`, with the answer of the resolver -/
def rejectBlockedResolvedIps (host : String) (resolution : Resolution) :
    Except EndpointError (List String) :=
  match resolveHost resolution with
  | none => .error .unicodeError
  | some ips =>
    if ips.isEmpty then .error (.unresolved host)
    else match ips.find? isBlockedIp with
      | some ip => .error (.blockedAddress host ip)
      | none => .ok ips

/-- `validate_receiver_endpoint_url` -/
def validateReceiverEndpointUrl (allowedHosts : List String) (resolver : String → Resolution)
    (url : String) : Except EndpointError String :=
  if url = "" then .error .empty
  else match urls.urlparse url with
    | .error reason => .error (.notValid reason)
    | .ok parsed =>
      rejectUnsafeSchemeOrParts parsed >>= fun _ =>
        if parsed.hostname = "" then .error .noHost
        else rejectBlockedHostLiteral urls parsed.hostname >>= fun _ =>
          if !allowedHosts.isEmpty && !receiverHostAllowed urls.hostname allowedHosts url then
            .error (.notAllowed parsed.hostname)
          else
            (rejectBlockedResolvedIps parsed.hostname (resolver parsed.hostname)).map
              fun _ => url

/-- `_check_stored_streams_allowlist` on the stored streams, `none` where they cannot be
read -/
def checkStoredStreamsAllowlist (allowedHosts : List String)
    (rows : Option (List StreamRow)) : Bool :=
  allowedHosts.isEmpty ||
    match rows with
    -- a check that cannot be made does not keep the process from starting
    | none => true
    | some rows => rows.all fun row =>
      receiverHostAllowed urls.hostname allowedHosts row.endpointUrl

/-! ## What passes the checks -/

/-- A URL with the form that the check asks for, whatever the resolver says. -/
structure WellFormedEndpoint (url : String) : Prop where
  exists_parsed : ∃ parsed, urls.urlparse url = .ok parsed ∧ parsed.scheme = "https" ∧
    parsed.username = "" ∧ parsed.password = "" ∧ parsed.fragment = "" ∧
      parsed.hostname ≠ "" ∧ urls.lower parsed.hostname ∉ blockedHostnames ∧
        ((ipAddress parsed.hostname).isSome → isBlockedIp parsed.hostname = false)

theorem rejectUnsafeSchemeOrParts_eq_ok {parsed : ParsedUrl}
    (haccepted : rejectUnsafeSchemeOrParts parsed = .ok ()) :
    parsed.scheme = "https" ∧ parsed.username = "" ∧ parsed.password = "" ∧
      parsed.fragment = "" := by
  rw [rejectUnsafeSchemeOrParts] at haccepted
  split_ifs at haccepted with hscheme hcredentials hfragment
  rw [not_or, not_ne_iff, not_ne_iff] at hcredentials
  exact ⟨not_ne_iff.mp hscheme, hcredentials.1, hcredentials.2, not_ne_iff.mp hfragment⟩

variable {urls}

theorem rejectBlockedHostLiteral_eq_ok {host : String}
    (haccepted : rejectBlockedHostLiteral urls host = .ok ()) :
    urls.lower host ∉ blockedHostnames ∧
      ((ipAddress host).isSome → isBlockedIp host = false) := by
  rw [rejectBlockedHostLiteral] at haccepted
  split_ifs at haccepted with hblocked hliteral
  refine ⟨hblocked, fun haddress => ?_⟩
  rw [haddress, Bool.true_and] at hliteral
  exact Bool.not_eq_true _ ▸ hliteral

theorem receiverHostAllowed_of_check {allowedHosts : List String} {url : String}
    (hcheck : ¬(!allowedHosts.isEmpty &&
      !receiverHostAllowed urls.hostname allowedHosts url) = true) :
    receiverHostAllowed urls.hostname allowedHosts url = true := by
  rw [Bool.and_eq_true, Bool.not_eq_true', Bool.not_eq_true', not_and,
    Bool.not_eq_false] at hcheck
  by_cases hempty : allowedHosts.isEmpty = true
  · rw [receiverHostAllowed, hempty, Bool.true_or]
  · exact hcheck (Bool.not_eq_true _ ▸ hempty)

/-- A URL that passes the check has the form it asks for, and a host on the allowlist. -/
theorem validateReceiverEndpointUrl_eq_ok {allowedHosts : List String}
    {resolver : String → Resolution} {url accepted : String}
    (haccepted : validateReceiverEndpointUrl urls allowedHosts resolver url = .ok accepted) :
    WellFormedEndpoint urls url ∧
      receiverHostAllowed urls.hostname allowedHosts url = true := by
  rw [validateReceiverEndpointUrl] at haccepted
  by_cases hempty : url = ""
  · rw [if_pos hempty] at haccepted
    cases haccepted
  · rw [if_neg hempty] at haccepted
    rcases hparse : urls.urlparse url with reason | parsed
    · rw [hparse] at haccepted
      cases haccepted
    · rw [hparse] at haccepted
      dsimp only at haccepted
      obtain ⟨_, hparts, hrest⟩ := bind_eq_ok_iff.mp haccepted
      obtain ⟨hscheme, husername, hpassword, hfragment⟩ :=
        rejectUnsafeSchemeOrParts_eq_ok hparts
      by_cases hhost : parsed.hostname = ""
      · rw [if_pos hhost] at hrest
        cases hrest
      · rw [if_neg hhost] at hrest
        obtain ⟨_, hliteral, hrest⟩ := bind_eq_ok_iff.mp hrest
        obtain ⟨hname, haddress⟩ := rejectBlockedHostLiteral_eq_ok hliteral
        split_ifs at hrest with hallowed
        exact ⟨⟨parsed, hparse, hscheme, husername, hpassword, hfragment, hhost, hname,
          haddress⟩, receiverHostAllowed_of_check hallowed⟩

theorem receiverHostAllowed_of_checkStored {allowedHosts : List String} {rows : List StreamRow}
    (hcheck : checkStoredStreamsAllowlist urls allowedHosts (some rows) = true) {row : StreamRow}
    (hrow : row ∈ rows) :
    receiverHostAllowed urls.hostname allowedHosts row.endpointUrl = true := by
  rw [checkStoredStreamsAllowlist, Bool.or_eq_true, List.all_eq_true] at hcheck
  rcases hcheck with hempty | hall
  · rw [receiverHostAllowed, hempty, Bool.true_or]
  · exact hall row hrow

end Checks

end SsfTransmitter.Routes
