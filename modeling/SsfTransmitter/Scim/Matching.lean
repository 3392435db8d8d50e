import SsfTransmitter.Scim.Creating

/-!
# What a source user matches

Over an exact listing the loop finds the record with the user's externalId, else the one
with its userName, and a conflict where these are two.
-/

namespace SsfTransmitter.Scim

open SsfTransmitter.Python

variable [PyRuntime]

/-- What there is among the users for a source user. -/
inductive Matches (users : List Dict) (user : Dict) : Match → Prop
  | conflict {linked named : Dict} (hlinked : linked ∈ users)
      (hexternalId : externalIdOf linked = externalIdOf user) (hnamed : named ∈ users)
      (husername : usernameOf named = usernameOf user)
      (hother : named.get? "id" ≠ linked.get? "id") : Matches users user .conflict
  | absent (hexternalId : ∀ record ∈ users, externalIdOf record ≠ externalIdOf user)
      (husername : ∀ record ∈ users, usernameOf record ≠ usernameOf user) :
      Matches users user .absent
  | linked {position : ℕ} {record : Dict} (hrecord : users[position]? = some record)
      (hexternalId : externalIdOf record = externalIdOf user)
      (husername : ∀ other ∈ users, usernameOf other = usernameOf user → other = record) :
      Matches users user (.matched position false)
  | named {position : ℕ} {record : Dict} (hrecord : users[position]? = some record)
      (hexternalId : ∀ other ∈ users, externalIdOf other ≠ externalIdOf user)
      (husername : usernameOf record = usernameOf user) :
      Matches users user (.matched position true)

section Matching

variable {listing : Listing} {user : Dict}

omit [PyRuntime] in
theorem requireId_congr {first second : Dict} (hsame : first.get? "id" = second.get? "id") :
    requireId first = requireId second := by
  rw [requireId, requireId, hsame]

theorem Listing.Exact.requireId_of_getElem? (hexact : listing.Exact) {position : ℕ}
    {record : Dict} (hrecord : listing.users[position]? = some record) :
    ∃ userId, record.get? "id" = some (.str userId) ∧ requireId record = .ok userId := by
  obtain ⟨userId, hid⟩ := exists_str_of_isSafeUserId
    (hexact.unambiguous.safe record (List.mem_of_getElem? hrecord))
  exact ⟨userId, hid, requireId_eq_ok_iff.mpr hid⟩

/-- A lookup by userName decides between the named record and none. -/
theorem Listing.Exact.lookup_username (hexact : listing.Exact) (username : PyStr) :
    listing.byUsername.lookup username = none ∧
        (∀ record ∈ listing.users, usernameOf record ≠ username) ∨
      ∃ position record, listing.byUsername.lookup username = some position ∧
        listing.users[position]? = some record ∧ usernameOf record = username := by
  cases hlookup : listing.byUsername.lookup username with
  | none => exact .inl ⟨rfl, (hexact.byUsername.lookup_eq_none_iff trivial).mp hlookup⟩
  | some position =>
      obtain ⟨record, hrecord, hname⟩ := (hexact.byUsername _ trivial position).mp hlookup
      exact .inr ⟨position, record, rfl, hrecord, hname⟩

theorem matchAppleUser_of_linked (hlinked : externalIdOf user ≠ []) (records : List Dict) :
    matchAppleUser listing records user =
      match listing.byExternalId.lookup (externalIdOf user),
        listing.byUsername.lookup (usernameOf user) with
      | some byExt, some position => do
        let usernameId ← requireId (records.getD position [])
        let externalIdId ← requireId (records.getD byExt [])
        if usernameId ≠ externalIdId then pure .conflict else pure (.matched byExt false)
      | some byExt, none => pure (.matched byExt false)
      | none, some position =>
        if records.getD position [] ≠ [] then pure (.matched position true) else pure .absent
      | none, none => pure .absent := by
  rw [matchAppleUser, exists_sourceExternalId hlinked]
  dsimp only [bind, Except.bind]
  cases listing.byExternalId.lookup (externalIdOf user) with
  | none => cases listing.byUsername.lookup (usernameOf user) <;> rfl
  | some byExt => cases listing.byUsername.lookup (usernameOf user) <;> rfl

/-- Records that begin with the ids that the listing has. -/
def Aligned (records users : List Dict) : Prop :=
  ∀ position user, users[position]? = some user →
    (records.getD position []).get? "id" = user.get? "id"

/-- What is matched depends on the ids of the records that the loop holds. -/
theorem exists_matches (hexact : listing.Exact) (hlinked : externalIdOf user ≠ []) :
    ∃ found, Matches listing.users user found ∧ ∀ records, Aligned records listing.users →
      matchAppleUser listing records user = .ok found := by
  simp only [matchAppleUser_of_linked hlinked]
  cases hlookup : listing.byExternalId.lookup (externalIdOf user) with
  | none =>
      have hunlinked := (hexact.byExternalId.lookup_eq_none_iff hlinked).mp hlookup
      obtain ⟨hnone, hunnamed⟩ | ⟨position, record, hsome, hrecord, hname⟩ :=
        hexact.lookup_username (usernameOf user)
      · rw [hnone]
        exact ⟨_, .absent hunlinked hunnamed, fun _ _ => rfl⟩
      · obtain ⟨userId, hid, -⟩ := hexact.requireId_of_getElem? hrecord
        rw [hsome]
        refine ⟨_, .named hrecord hunlinked hname, fun records haligned => if_pos ?_⟩
        intro hempty
        have hsame := haligned position record hrecord
        rw [hempty, hid] at hsame
        cases hsame
  | some byExt =>
      obtain ⟨linked, hfound, hexternalId⟩ := (hexact.byExternalId _ hlinked byExt).mp hlookup
      have hmem := List.mem_of_getElem? hfound
      obtain ⟨hnone, hunnamed⟩ | ⟨position, record, hsome, hrecord, hname⟩ :=
        hexact.lookup_username (usernameOf user)
      · rw [hnone]
        exact ⟨_, .linked hfound hexternalId fun other hother hsame =>
          absurd hsame (hunnamed other hother), fun _ _ => rfl⟩
      · obtain ⟨linkedId, hlinkedId, hlinkedRequired⟩ := hexact.requireId_of_getElem? hfound
        obtain ⟨userId, hid, hrequired⟩ := hexact.requireId_of_getElem? hrecord
        have hnamed := List.mem_of_getElem? hrecord
        have hcompared : ∀ records, Aligned records listing.users → (do
            let usernameId ← requireId (records.getD position [])
            let externalIdId ← requireId (records.getD byExt [])
            if usernameId ≠ externalIdId then pure .conflict
            else pure (.matched byExt false)) =
            (.ok (if userId ≠ linkedId then .conflict else .matched byExt false) :
              Except PyExc Match) := by
          intro records haligned
          rw [requireId_congr (haligned position record hrecord),
            requireId_congr (haligned byExt linked hfound), hrequired, hlinkedRequired]
          dsimp only [bind, Except.bind]
          split_ifs <;> rfl
        rw [hsome]
        refine ⟨_, ?_, hcompared⟩
        split_ifs with hother
        · refine .conflict hmem hexternalId hnamed hname ?_
          rw [hid, hlinkedId]
          exact fun hsame => hother (Json.str.inj (Option.some.inj hsame))
        · obtain rfl : record = linked := hexact.unambiguous.eq_of_id hnamed hmem
            (by rw [hid, hlinkedId, not_not.mp hother])
          exact .linked hfound hexternalId fun other hmem' hsame =>
            hexact.unambiguous.eq_of_username hmem' hnamed (hsame.trans hname.symm)

end Matching

end SsfTransmitter.Scim
