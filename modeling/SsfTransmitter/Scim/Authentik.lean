import SsfTransmitter.Core.Links
import SsfTransmitter.Scim.Listing

/-!
# Fetching users from Authentik

The users list is read page by page through its `next` links and mapped to SCIM
records.  A page is whatever JSON the upstream sends.
-/

namespace SsfTransmitter.Scim

open SsfTransmitter.Core
open SsfTransmitter.Python

/-! ## Paging -/

/-- The items that `all_users.extend` takes from a value. -/
def iterated : Json → Except PyExc (List Json)
  | .list items => .ok items
  | .dict fields => .ok (fields.map fun field => .str field.1)
  | .str text => .ok (text.map fun point => .str [point])
  | _ => .error .typeError

/-- The results of a page and its `next` value; `none` where the fetch is given up. -/
def readPage (outcome : Outcome) : Except PyExc (Option (List Json × Json)) :=
  match outcome with
  | .networkError => .ok none
  | .refused => .error .clientError
  | .response reply =>
    if reply.status ≠ 200 then .ok none
    else
      match reply.json with
      -- `except Exception` around `resp.json()`
      | .error _ => .ok none
      | .ok (.dict data) =>
        (iterated (Dict.getD data "results" (.list []))).map fun results =>
          some (results, Dict.getD data "next" .null)
      | .ok _ => .error .attributeError

/-- The requested URLs and what the fetch returns or raises. -/
structure Fetch where
  requests : List PyStr
  result : Except PyExc (Option (List Json))

/-- `_fetch_all_users` against a server that answers request `n` for a URL; `none`
while `fuel` tests of the loop condition do not suffice. -/
def fetchAllUsers (server : ℕ → PyStr → Outcome) :
    ℕ → Json → List Json → List PyStr → Option Fetch
  | 0, _, _, _ => none
  | fuel + 1, url, allUsers, requests =>
    if url.truthy = false then some ⟨requests, .ok (some allUsers)⟩
    else
      match url with
      | .str address =>
        match readPage (server requests.length address) with
        | .error error => some ⟨requests ++ [address], .error error⟩
        | .ok none => some ⟨requests ++ [address], .ok none⟩
        | .ok (some (results, next)) =>
          fetchAllUsers server fuel next (allUsers ++ results) (requests ++ [address])
      -- the client takes no URL that is not a string
      | _ => some ⟨requests, .error .typeError⟩

/-! ## Mapping -/

section Mapping

variable [PyRuntime]

/-- `value or ""` -/
def orEmpty (value : Option Json) : Json :=
  match value with
  | some value => if value.truthy then value else .str []
  | none => .str []

end Mapping

end SsfTransmitter.Scim
