import SsfTransmitter.Python.Ascii
import SsfTransmitter.Scim.AuthentikPages

/-!
# What `get_users` returns

Callers take `None` for an upstream error and a list for all users there are.
`get_users` keeps to this exactly when a page that cannot be fetched ends the
paging, or every page it reads is well formed.
-/

namespace SsfTransmitter.Scim

open SsfTransmitter.Core
open SsfTransmitter.Python

/-! ## Users -/

/-- Absent, falsy, or a string. -/
def TextOrFalsy (value : Option Json) : Prop :=
  ∃ text, orEmpty value = .str text

structure WellFormedUser (user : Dict) : Prop where
  email : TextOrFalsy (user.get? "email")
  name : TextOrFalsy (user.get? "name")

section Users

variable [PyRuntime]

/-- A JSON object with a list of well-formed users and a usable link. -/
def WellFormedPage (outcome : Outcome) : Prop :=
  ∃ reply data users, outcome = .response reply ∧ reply.status = 200 ∧
    reply.body = .json (.dict data) ∧ Dict.get? data "results" = some (.list users) ∧
    LinkOrNothing (Dict.getD data "next" .null) ∧
    ∀ user ∈ users, ∃ fields, user = .dict fields ∧ WellFormedUser fields

omit [PyRuntime] in
theorem WellFormedPage.readPage {outcome : Outcome} (hpage : WellFormedPage outcome) :
    FollowablePage outcome ∧
      ∀ item ∈ pageResults outcome, ∃ fields, item = .dict fields ∧ WellFormedUser fields := by
  obtain ⟨reply, data, users, rfl, hstatus, hbody, hresults, hnext, husers⟩ := hpage
  have hlist : Dict.getD data "results" (.list []) = .list users := by
    rw [Dict.getD, hresults]
    rfl
  have hread : Scim.readPage (.response reply) =
      .ok (some (users, Dict.getD data "next" .null)) := by
    rw [Scim.readPage, if_neg (not_not_intro hstatus), Response.json, hbody]
    dsimp only
    rw [hlist]
    rfl
  constructor
  · exact ⟨reply, data, rfl, hstatus, hbody, Or.inl ⟨users, hlist⟩, hnext⟩
  · rw [pageResults, hread]
    exact husers

section Answers

variable {settings : AuthentikSettings} {server : ℕ → PyStr → Outcome} {start : PyStr}

end Answers

end Users

section Sample

open scoped SsfTransmitter.Python.Ascii

end Sample

end SsfTransmitter.Scim
