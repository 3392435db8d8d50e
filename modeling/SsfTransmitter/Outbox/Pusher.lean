import SsfTransmitter.Python.IpAddress
import Mathlib.Data.List.Basic

/-!
# Pushing to a receiver

`app.events.pusher` and the checks of `app.security.url_validation` that it makes
before every push.  The check asks the resolver for the receiver's addresses; the
HTTP client asks again when it connects.  Each query has an answer of its own.
-/

namespace SsfTransmitter.Outbox

open SsfTransmitter.Python

/-! ## Blocked addresses -/

/-- `_BLOCKED_NETWORKS` -/
def blockedNetworks : List IpNetwork :=
  ["0.0.0.0/8", "10.0.0.0/8", "100.64.0.0/10", "127.0.0.0/8", "169.254.0.0/16",
    "172.16.0.0/12", "192.0.0.0/24", "192.0.2.0/24", "192.168.0.0/16", "198.18.0.0/15",
    "198.51.100.0/24", "203.0.113.0/24", "224.0.0.0/4", "240.0.0.0/4",
    "255.255.255.255/32", "::1/128", "fc00::/7", "fe80::/10", "ff00::/8"].filterMap
      ipNetwork

/-- `_IPV4_EMBEDDING_NETWORKS` -/
def ipv4EmbeddingNetworks : List IpNetwork :=
  ["::/96", "64:ff9b::/96"].filterMap ipNetwork

/-- The IPv4 address that `_is_blocked_ip` looks at in place of an IPv6 address. -/
def embeddedIpv4 (value : BitVec 128) : Option (BitVec 32) :=
  match (ipv4Mapped value).or ((sixToFour value).or (teredoClient value)) with
  | some embedded => some embedded
  | none =>
    if ipv4EmbeddingNetworks.any fun network => network.contains (.v6 value) then
      some (value.setWidth 32)
    else none

/-- `_is_blocked_ip`; what is no address counts as blocked. -/
def isBlockedIp (text : String) : Bool :=
  match ipAddress text with
  | none => true
  | some (.v4 value) => blockedNetworks.any fun network => network.contains (.v4 value)
  | some (.v6 value) =>
    let address := match embeddedIpv4 value with
      | some embedded => IpAddress.v4 embedded
      | none => .v6 value
    blockedNetworks.any fun network => network.contains address

/-! ## The check and the push -/

/-- How a query of `socket.getaddrinfo` ends.  A name that cannot be put into a
query raises `UnicodeError`. -/
inductive Resolution where
  | addresses (ips : List String)
  | osError
  | unicodeError

/-- `_resolve_host`, `none` where an exception leaves it. -/
def resolveHost : Resolution → Option (List String)
  | .addresses ips => some ips
  | .osError => some []
  | .unicodeError => none

/-- What the client makes of the addresses: the one to which it gets a connection,
and what comes back. -/
inductive Response where
  | httpError
  | exception
  | status (code : ℕ)

structure Connections where
  reach : ℕ → List String → Option String
  reach_mem : ∀ query ips ip, reach query ips = some ip → ip ∈ ips
  response : ℕ → Response

/-- A SET that went over a connection. -/
structure Sent where
  address : String
  token : String

section Push

variable (hostname : String → Option String) (allowedHosts : List String)
  (resolver : ℕ → String → Resolution)

/-- `safe_hostname`, with `urlparse(url).hostname` in lower case as parameter. -/
def safeHostname (url : String) : String :=
  (hostname url).getD ""

/-- `receiver_host_allowed` -/
def receiverHostAllowed (url : String) : Bool :=
  allowedHosts.isEmpty || allowedHosts.contains (safeHostname hostname url)

/-- `_revalidate_endpoint`, whose query is `check`. -/
def revalidateEndpoint (check : ℕ) (url : String) : Option Bool :=
  if !allowedHosts.isEmpty && !receiverHostAllowed hostname allowedHosts url then some false
  else
    let host := safeHostname hostname url
    if host = "" then some false
    else match resolveHost (resolver check host) with
      | none => none
      | some [] => some false
      | some ips => some (ips.all fun ip => !isBlockedIp ip)

variable (connections : Connections)

/-- `client.post(stream.endpoint_url, …)` and what is made of the response.  The
client resolves the host itself, with the query `connect`. -/
def postSet (connect : ℕ) (url token : String) : Option Bool × List Sent :=
  match resolver connect (safeHostname hostname url) with
  | .osError => (some false, [])
  | .unicodeError => (none, [])
  | .addresses ips =>
    match connections.reach connect ips with
    | none => (some false, [])
    | some ip =>
      (match connections.response connect with
        | .httpError => some false
        | .exception => none
        | .status code => some (200 ≤ code ∧ code < 300), [⟨ip, token⟩])

/-- `push_signed_set` -/
def pushSignedSet (check connect : ℕ) (url token : String) : Option Bool × List Sent :=
  match revalidateEndpoint hostname allowedHosts resolver check url with
  | none => (none, [])
  | some false => (some false, [])
  | some true => postSet hostname resolver connections connect url token

/-- `push_verification_set`, with the token of `sign_verification_set` unless that
raises. -/
def pushVerificationSet (check connect : ℕ) (url : String) (signed : Option String) :
    Option Bool × List Sent :=
  match revalidateEndpoint hostname allowedHosts resolver check url with
  | none => (none, [])
  | some false => (some false, [])
  | some true =>
    match signed with
    | none => (some false, [])
    | some token => postSet hostname resolver connections connect url token

/-- A push of a queued or of a verification SET, with the numbers of the queries
that its check and its connection make. -/
inductive Push where
  | queued (check connect : ℕ) (url token : String)
  | verification (check connect : ℕ) (url : String) (signed : Option String)

def Push.sent : Push → List Sent
  | .queued check connect url token =>
    (pushSignedSet hostname allowedHosts resolver connections check connect url token).2
  | .verification check connect url signed =>
    (pushVerificationSet hostname allowedHosts resolver connections check connect url
      signed).2

/-- The addresses that the check of a URL accepts: some, and none of them blocked. -/
def Accepted (check : ℕ) (url : String) : Prop :=
  receiverHostAllowed hostname allowedHosts url = true ∧
    safeHostname hostname url ≠ "" ∧
    ∃ ips, resolver check (safeHostname hostname url) = .addresses ips ∧ ips ≠ [] ∧
      ∀ ip ∈ ips, isBlockedIp ip = false

/-- The client's own query brings up no blocked address. -/
def ConnectsSafely (connect : ℕ) (url : String) : Prop :=
  ∀ ips, resolver connect (safeHostname hostname url) = .addresses ips →
    ∀ ip ∈ ips, isBlockedIp ip = false

/-- An accepted push with a token is answered alike by the resolver. -/
def Push.AnsweredAlike : Push → Prop
  | .queued check connect url _ =>
    Accepted hostname allowedHosts resolver check url →
      ConnectsSafely hostname resolver connect url
  | .verification check connect url signed =>
    Accepted hostname allowedHosts resolver check url → signed.isSome →
      ConnectsSafely hostname resolver connect url

variable {hostname allowedHosts resolver connections}

theorem revalidateEndpoint_eq_true_iff {check : ℕ} {url : String} :
    revalidateEndpoint hostname allowedHosts resolver check url = some true ↔
      Accepted hostname allowedHosts resolver check url := by
  rw [revalidateEndpoint, Accepted]
  by_cases hallowed : receiverHostAllowed hostname allowedHosts url = true
  · by_cases hhost : safeHostname hostname url = ""
    · simp [hhost]
    · simp only [hallowed, hhost]
      cases resolver check (safeHostname hostname url) with
      | addresses ips => cases ips <;> simp [resolveHost, hhost]
      | osError => simp [resolveHost]
      | unicodeError => simp [resolveHost]
  · have hsome : allowedHosts.isEmpty = false := by
      rw [receiverHostAllowed, Bool.or_eq_true, not_or] at hallowed
      simpa using hallowed.1
    simp [hallowed, hsome]

theorem mem_sent_postSet {connect : ℕ} {url token : String} {sent : Sent}
    (hsent : sent ∈ (postSet hostname resolver connections connect url token).2) :
    ∃ ips, resolver connect (safeHostname hostname url) = .addresses ips ∧
      sent.address ∈ ips := by
  rw [postSet] at hsent
  split at hsent
  · simp at hsent
  · simp at hsent
  · next ips hresolved =>
    split at hsent
    · simp at hsent
    · next ip hip =>
      obtain rfl := List.mem_singleton.mp hsent
      exact ⟨ips, hresolved, connections.reach_mem _ _ _ hip⟩

/-- The client that connects to a given address whenever it is an answer. -/
def reaching (address : String) : Connections where
  reach _ ips := if address ∈ ips then some address else none
  reach_mem _ ips ip hip := by
    split_ifs at hip with hmem
    exact Option.some.inj hip ▸ hmem
  response _ := .status 200

theorem sent_postSet_reaching {connect : ℕ} {url : String} (token : String)
    {ips : List String} {address : String}
    (hresolved : resolver connect (safeHostname hostname url) = .addresses ips)
    (hmem : address ∈ ips) :
    (postSet hostname resolver (reaching address) connect url token).2 =
      [⟨address, token⟩] := by
  simp [postSet, hresolved, reaching, hmem]

/-- A post is safe over every connection exactly when its own query is. -/
theorem forall_sent_postSet_iff {connect : ℕ} {url token : String} :
    (∀ connections : Connections,
      ∀ sent ∈ (postSet hostname resolver connections connect url token).2,
        isBlockedIp sent.address = false) ↔ ConnectsSafely hostname resolver connect url := by
  constructor
  · intro hsafe ips hresolved ip hip
    have hsent := sent_postSet_reaching token hresolved hip
    exact hsafe (reaching ip) ⟨ip, token⟩ (hsent ▸ List.mem_singleton_self _)
  · intro hconnects connections sent hsent
    obtain ⟨ips, hresolved, hmem⟩ := mem_sent_postSet hsent
    exact hconnects ips hresolved sent.address hmem

theorem Push.forall_sent_iff (push : Push) :
    (∀ connections : Connections,
      ∀ sent ∈ push.sent hostname allowedHosts resolver connections,
        isBlockedIp sent.address = false) ↔
      push.AnsweredAlike hostname allowedHosts resolver := by
  cases push with
  | queued check connect url token =>
      simp only [Push.sent, Push.AnsweredAlike, pushSignedSet,
        ← revalidateEndpoint_eq_true_iff]
      split
      · next hcheck => simp [hcheck]
      · next hcheck => simp [hcheck]
      · next hcheck =>
        rw [forall_sent_postSet_iff]
        exact ⟨fun hsafe _ => hsafe, fun hsafe => hsafe hcheck⟩
  | verification check connect url signed =>
      simp only [Push.sent, Push.AnsweredAlike, pushVerificationSet,
        ← revalidateEndpoint_eq_true_iff]
      split
      · next hcheck => simp [hcheck]
      · next hcheck => simp [hcheck]
      · next hcheck =>
        cases signed with
        | none => simp
        | some token =>
            dsimp only
            rw [forall_sent_postSet_iff]
            exact ⟨fun hsafe _ _ => hsafe, fun hsafe => hsafe hcheck rfl⟩

end Push

/-- No SET goes to a blocked address, wherever the connections lead, exactly when
the resolver gives no blocked address to the client after it satisfied the check. -/
theorem sent_not_blocked_iff (hostname : String → Option String)
    (allowedHosts : List String) (resolver : ℕ → String → Resolution)
    (pushes : List Push) :
    (∀ connections : Connections, ∀ push ∈ pushes,
      ∀ sent ∈ push.sent hostname allowedHosts resolver connections,
        isBlockedIp sent.address = false) ↔
      ∀ push ∈ pushes, push.AnsweredAlike hostname allowedHosts resolver := by
  calc
    _ ↔ ∀ push ∈ pushes, ∀ connections : Connections,
        ∀ sent ∈ push.sent hostname allowedHosts resolver connections,
          isBlockedIp sent.address = false :=
      ⟨fun hsafe push hpush connections => hsafe connections push hpush,
        fun hsafe connections push hpush => hsafe push hpush connections⟩
    _ ↔ _ := forall₂_congr fun push _ => push.forall_sent_iff

/-- A name server that changes its answer after the check. -/
def rebindingResolver (query : ℕ) (_host : String) : Resolution :=
  if query = 0 then .addresses ["93.184.216.34"] else .addresses ["169.254.169.254"]

theorem sent_to_blocked_address :
    ∃ sent ∈ (Push.queued 0 1 "https://receiver.example/events" "signed").sent
        (fun _ => some "receiver.example") [] rebindingResolver
        (reaching "169.254.169.254"),
      isBlockedIp sent.address = true := by
  refine ⟨⟨"169.254.169.254", "signed"⟩, ?_, by decide +kernel⟩
  have hchecked : revalidateEndpoint (fun _ => some "receiver.example") []
      rebindingResolver 0 "https://receiver.example/events" = some true := by decide +kernel
  rw [Push.sent, pushSignedSet, hchecked]
  exact List.mem_singleton_self _

end SsfTransmitter.Outbox
