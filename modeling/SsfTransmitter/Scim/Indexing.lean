import SsfTransmitter.Scim.Listing

/-!
# What the indexes of a listing find

An index finds the users of a list by a key when each lookup leads to the position
of the one user with that key.  A listing is exact when it was built user by user
and none was refused.
-/

namespace SsfTransmitter.Scim

open SsfTransmitter.Python

namespace Index

/-- Under the keys that count, lookups lead to the users with that key, and to
nothing else. -/
def Finds (index : Index) (users : List Dict) (keyOf : Dict → PyStr)
    (counts : PyStr → Prop) : Prop :=
  ∀ key, counts key → ∀ position,
    index.lookup key = some position ↔
      ∃ user, users[position]? = some user ∧ keyOf user = key

variable {index : Index} {users : List Dict} {keyOf : Dict → PyStr}
variable {counts : PyStr → Prop}

theorem Finds.nil : Finds [] [] keyOf counts := by
  intro key _ position
  simp

/-- The user after the end of a list, at its position. -/
theorem getElem?_snoc_eq_some_iff {user found : Dict} {position : ℕ} :
    (users ++ [user])[position]? = some found ↔
      users[position]? = some found ∨ position = users.length ∧ user = found := by
  rcases lt_trichotomy position users.length with hlt | rfl | hgt
  · rw [List.getElem?_append_left hlt]
    simp [hlt.ne]
  · simp
  · rw [List.getElem?_eq_none (by simp; omega), List.getElem?_eq_none (by omega)]
    simp [hgt.ne']

/-- A user without a key that counts needs no entry. -/
theorem Finds.skip (hfinds : Finds index users keyOf counts) {user : Dict}
    (hskip : ¬ counts (keyOf user)) : Finds index (users ++ [user]) keyOf counts := by
  intro key hkey position
  rw [hfinds key hkey position]
  constructor
  · rintro ⟨found, hfound, rfl⟩
    exact ⟨found, getElem?_snoc_eq_some_iff.mpr (.inl hfound), rfl⟩
  · rintro ⟨found, hfound, rfl⟩
    rcases getElem?_snoc_eq_some_iff.mp hfound with hfound | ⟨-, rfl⟩
    · exact ⟨found, hfound, rfl⟩
    · exact absurd hkey hskip

theorem Finds.lookup_eq_none_iff (hfinds : Finds index users keyOf counts) {key : PyStr}
    (hkey : counts key) :
    index.lookup key = none ↔ ∀ user ∈ users, keyOf user ≠ key := by
  rw [Option.eq_none_iff_forall_ne_some]
  simp only [ne_eq, hfinds key hkey, not_exists, not_and]
  constructor
  · intro hnone user huser
    obtain ⟨position, hposition⟩ := List.getElem?_of_mem huser
    exact hnone position user hposition
  · intro hnone position user huser
    exact hnone user (List.mem_of_getElem? huser)

/-- An entry for a new user with a new key. -/
theorem Finds.add (hfinds : Finds index users keyOf counts) {user : Dict}
    (hnew : counts (keyOf user) → index.lookup (keyOf user) = none) :
    Finds ((keyOf user, users.length) :: index) (users ++ [user]) keyOf counts := by
  intro key hkey position
  simp only [getElem?_snoc_eq_some_iff]
  rw [List.lookup_cons]
  by_cases heq : key = keyOf user
  · subst heq
    have hothers := (hfinds.lookup_eq_none_iff hkey).mp (hnew hkey)
    simp only [beq_self_eq_true, Option.some.injEq]
    constructor
    · rintro rfl
      exact ⟨user, .inr ⟨rfl, rfl⟩, rfl⟩
    · rintro ⟨found, hfound | ⟨rfl, -⟩, hsame⟩
      · exact absurd hsame (hothers found (List.mem_of_getElem? hfound))
      · rfl
  · have hne : (key == keyOf user) = false := beq_eq_false_iff_ne.mpr heq
    rw [hne]
    dsimp only
    rw [hfinds key hkey position]
    constructor
    · rintro ⟨found, hfound, hsame⟩
      exact ⟨found, .inl hfound, hsame⟩
    · rintro ⟨found, hfound | ⟨-, rfl⟩, hsame⟩
      · exact ⟨found, hfound, hsame⟩
      · exact absurd hsame.symm heq

/-- No two users have the same key. -/
theorem Finds.inj (hfinds : Finds index users keyOf counts) {first second : ℕ}
    {user other : Dict} (huser : users[first]? = some user)
    (hother : users[second]? = some other) (hcounts : counts (keyOf user))
    (hsame : keyOf user = keyOf other) : first = second := by
  have hfirst := (hfinds _ hcounts first).mpr ⟨user, huser, rfl⟩
  have hsecond := (hfinds _ hcounts second).mpr ⟨other, hother, hsame.symm⟩
  exact Option.some.inj (hfirst.symm.trans hsecond)

theorem Finds.match_eq_some_iff (hfinds : Finds index users keyOf counts) {key : PyStr}
    (hkey : counts key) {user : Dict} :
    ((index.lookup key).bind fun position => users[position]?) = some user ↔
      user ∈ users ∧ keyOf user = key := by
  rw [Option.bind_eq_some_iff]
  constructor
  · rintro ⟨position, hlookup, huser⟩
    obtain ⟨found, hfound, hsame⟩ := (hfinds key hkey position).mp hlookup
    obtain rfl : found = user := Option.some.inj (hfound.symm.trans huser)
    exact ⟨List.mem_of_getElem? huser, hsame⟩
  · rintro ⟨huser, rfl⟩
    obtain ⟨position, hposition⟩ := List.getElem?_of_mem huser
    exact ⟨position, (hfinds _ hkey position).mpr ⟨user, hposition, rfl⟩, hposition⟩

end Index

variable [PyRuntime]

/-- Users that identities tell apart.  Only blank externalIds may repeat. -/
structure Unambiguous (users : List Dict) : Prop where
  safe : ∀ user ∈ users, isSafeUserId (user.get? "id") = true
  named : ∀ user ∈ users, hasUsername user = true
  ids : (users.map fun user => user.get? "id").Nodup
  usernames : (users.map usernameOf).Nodup
  externalIds : ((users.map externalIdOf).filter (· ≠ [])).Nodup

namespace Unambiguous

theorem nil : Unambiguous [] :=
  ⟨nofun, nofun, .nil, .nil, .nil⟩

theorem sublist {users kept : List Dict} (husers : Unambiguous users)
    (hkept : kept.Sublist users) : Unambiguous kept where
  safe user huser := husers.safe user (hkept.subset huser)
  named user huser := husers.named user (hkept.subset huser)
  ids := husers.ids.sublist (hkept.map _)
  usernames := husers.usernames.sublist (hkept.map _)
  externalIds := husers.externalIds.sublist ((hkept.map _).filter _)

/-- What a new user must differ in. -/
structure New (users : List Dict) (user : Dict) : Prop where
  safe : isSafeUserId (user.get? "id") = true
  named : hasUsername user = true
  id : ∀ other ∈ users, other.get? "id" ≠ user.get? "id"
  username : ∀ other ∈ users, usernameOf other ≠ usernameOf user
  externalId : externalIdOf user ≠ [] → ∀ other ∈ users, externalIdOf other ≠ externalIdOf user

theorem snoc_iff {users : List Dict} {user : Dict} :
    Unambiguous (users ++ [user]) ↔ Unambiguous users ∧ New users user := by
  have hnodup : ∀ {Key : Type} {keys : List Key} {key : Key},
      (keys ++ [key]).Nodup ↔ keys.Nodup ∧ ∀ other ∈ keys, other ≠ key := by
    intro Key keys key
    simp [List.nodup_append]
  constructor
  · rintro ⟨hsafe, hnamed, hids, husernames, hexternalIds⟩
    rw [List.forall_mem_append] at hsafe hnamed
    rw [List.map_append, List.map_singleton, hnodup] at hids husernames
    rw [List.map_append, List.map_singleton, List.filter_append] at hexternalIds
    refine ⟨⟨hsafe.1, hnamed.1, hids.1, husernames.1, (List.nodup_append.mp hexternalIds).1⟩,
      hsafe.2 user List.mem_cons_self, hnamed.2 user List.mem_cons_self,
      fun other hother => hids.2 _ (List.mem_map_of_mem hother),
      fun other hother => husernames.2 _ (List.mem_map_of_mem hother), ?_⟩
    intro hlinked other hother heq
    have hkept : externalIdOf user ∈ (users.map externalIdOf).filter (· ≠ []) :=
      List.mem_filter.mpr ⟨heq ▸ List.mem_map_of_mem hother, by simpa using hlinked⟩
    rw [List.filter_cons_of_pos (by simpa using hlinked), List.filter_nil, hnodup]
      at hexternalIds
    exact hexternalIds.2 _ hkept rfl
  · rintro ⟨⟨hsafe, hnamed, hids, husernames, hexternalIds⟩, hnew⟩
    refine ⟨?_, ?_, ?_, ?_, ?_⟩
    · exact List.forall_mem_append.mpr ⟨hsafe, by simpa using hnew.safe⟩
    · exact List.forall_mem_append.mpr ⟨hnamed, by simpa using hnew.named⟩
    · rw [List.map_append, List.map_singleton, hnodup]
      exact ⟨hids, by simpa using hnew.id⟩
    · rw [List.map_append, List.map_singleton, hnodup]
      exact ⟨husernames, by simpa using hnew.username⟩
    · rw [List.map_append, List.map_singleton, List.filter_append]
      by_cases hlinked : externalIdOf user = []
      · rwa [List.filter_cons_of_neg (by simpa using hlinked), List.filter_nil,
          List.append_nil]
      · rw [List.filter_cons_of_pos (by simpa using hlinked), List.filter_nil, hnodup]
        refine ⟨hexternalIds, fun key hkey => ?_⟩
        obtain ⟨other, hother, rfl⟩ := List.mem_map.mp (List.mem_filter.mp hkey).1
        exact hnew.externalId hlinked other hother

section Identities

variable {users : List Dict} {first second : Dict}

theorem eq_of_id (husers : Unambiguous users) (hfirst : first ∈ users)
    (hsecond : second ∈ users) (hsame : first.get? "id" = second.get? "id") :
    first = second :=
  List.inj_on_of_nodup_map husers.ids hfirst hsecond hsame

theorem eq_of_username (husers : Unambiguous users) (hfirst : first ∈ users)
    (hsecond : second ∈ users) (hsame : usernameOf first = usernameOf second) :
    first = second :=
  List.inj_on_of_nodup_map husers.usernames hfirst hsecond hsame

theorem eq_of_externalId (husers : Unambiguous users) (hfirst : first ∈ users)
    (hsecond : second ∈ users) (hlinked : externalIdOf first ≠ [])
    (hsame : externalIdOf first = externalIdOf second) : first = second := by
  have hinj := husers.externalIds
  rw [List.filter_map] at hinj
  exact List.inj_on_of_nodup_map hinj (List.mem_filter.mpr ⟨hfirst, by simpa using hlinked⟩)
    (List.mem_filter.mpr ⟨hsecond, by simpa [← hsame] using hlinked⟩) hsame

theorem nodup (husers : Unambiguous users) : users.Nodup :=
  List.Nodup.of_map _ husers.ids

theorem perm {others : List Dict} (husers : Unambiguous users) (hperm : users.Perm others) :
    Unambiguous others where
  safe user huser := husers.safe user (hperm.mem_iff.mpr huser)
  named user huser := husers.named user (hperm.mem_iff.mpr huser)
  ids := (hperm.map _).nodup husers.ids
  usernames := (hperm.map _).nodup husers.usernames
  externalIds := ((hperm.map _).filter _).nodup husers.externalIds

/-- Some of the users, in any order. -/
theorem of_subset {others : List Dict} (husers : Unambiguous users) (hnodup : others.Nodup)
    (hsubset : others ⊆ users) : Unambiguous others := by
  obtain ⟨kept, hperm, hkept⟩ := List.subperm_of_subset hnodup hsubset
  exact (husers.sublist hkept).perm hperm

end Identities

end Unambiguous

/-- A listing that was built user by user. -/
structure Listing.Exact (listing : Listing) : Prop where
  unambiguous : Unambiguous listing.users
  seenIds : ∀ userId, userId ∈ listing.seenIds ↔
    ∃ user ∈ listing.users, user.get? "id" = some (.str userId)
  byUsername : listing.byUsername.Finds listing.users usernameOf fun _ => True
  byExternalId : listing.byExternalId.Finds listing.users externalIdOf (· ≠ [])

namespace Listing.Exact

theorem empty : Listing.Exact {} where
  unambiguous := .nil
  seenIds := by simp
  byUsername := .nil
  byExternalId := .nil

variable {listing : Listing} {user : Dict}

theorem truthy_of_externalIdOf (hlinked : externalIdOf user ≠ []) :
    (user.getD "externalId" .null).truthy = true := by
  rw [externalIdOf, trimmed] at hlinked
  rw [Dict.getD]
  cases hget : user.get? "externalId" with
  | none => simp [hget, textOf] at hlinked
  | some value =>
      by_contra hfalsy
      simp_all [textOf]

omit [PyRuntime] in
theorem truthy_of_hasUsername (hnamed : hasUsername user = true) :
    (user.getD "userName" (.str [])).truthy = true := by
  rw [hasUsername] at hnamed
  split at hnamed
  next username husername =>
    rw [Dict.getD, husername]
    cases username with
    | nil => simp [isBlank] at hnamed
    | cons first rest => rfl
  · cases hnamed

omit [PyRuntime] in
theorem requireSafeId_bind_eq_ok {Value : Type} {error : PyExc}
    {rest : PyStr → Except PyExc Value} {result : Value} :
    (requireSafeId user error >>= rest) = .ok result ↔
      ∃ userId, user.get? "id" = some (.str userId) ∧
        isSafeUserId (user.get? "id") = true ∧ rest userId = .ok result := by
  rw [requireSafeId]
  split
  next userId huserId =>
    cases hsafe : isSafeUserId (some (.str userId)) <;>
      simp [huserId, hsafe, bind, Except.bind]
  next hother =>
    simp only [bind, Except.bind, reduceCtorEq, false_iff, not_exists, not_and]
    exact fun userId huserId => absurd huserId (hother userId)

/-- The checks of a user are those of a new one. -/
theorem indexUniqueUser_eq_ok_iff (hexact : listing.Exact) {next : Listing} :
    indexUniqueUser listing user = .ok next ↔
      Unambiguous.New listing.users user ∧ ∃ userId, user.get? "id" = some (.str userId) ∧
        next = indexUsersPage user { listing with seenIds := userId :: listing.seenIds } := by
  simp only [indexUniqueUser, requireSafeId_bind_eq_ok, ensure_bind_eq_ok, not_or, not_and,
    Option.not_isSome_iff_eq_none, hexact.byUsername.lookup_eq_none_iff trivial]
  constructor
  · rintro ⟨userId, huserId, hsafe, hnamed, ⟨hid, husername, hexternalId⟩, hnext⟩
    refine ⟨⟨hsafe, hnamed, ?_, husername, ?_⟩, userId, huserId, (Except.ok.inj hnext).symm⟩
    · intro other hother heq
      exact hid ((hexact.seenIds userId).mpr ⟨other, hother, heq.trans huserId⟩)
    · intro hlinked
      exact (hexact.byExternalId.lookup_eq_none_iff hlinked).mp (hexternalId hlinked)
  · rintro ⟨hnew, userId, huserId, rfl⟩
    refine ⟨userId, huserId, hnew.safe, hnew.named, ⟨?_, hnew.username, ?_⟩, rfl⟩
    · intro hseen
      obtain ⟨other, hother, hsame⟩ := (hexact.seenIds userId).mp hseen
      exact hnew.id other hother (hsame.trans huserId.symm)
    · intro hlinked
      exact (hexact.byExternalId.lookup_eq_none_iff hlinked).mpr (hnew.externalId hlinked)

/-- The listing with a new user is exact again. -/
theorem index (hexact : listing.Exact) (hnew : Unambiguous.New listing.users user)
    {userId : PyStr} (huserId : user.get? "id" = some (.str userId)) :
    (indexUsersPage user { listing with seenIds := userId :: listing.seenIds }).Exact where
  unambiguous := Unambiguous.snoc_iff.mpr ⟨hexact.unambiguous, hnew⟩
  seenIds other := by
    simp only [indexUsersPage, List.mem_cons, hexact.seenIds, List.mem_append,
      List.not_mem_nil, or_false]
    constructor
    · rintro (rfl | ⟨found, hfound, hsame⟩)
      · exact ⟨user, .inr rfl, huserId⟩
      · exact ⟨found, .inl hfound, hsame⟩
    · rintro ⟨found, hfound | rfl, hsame⟩
      · exact .inr ⟨found, hfound, hsame⟩
      · rw [huserId] at hsame
        exact .inl (Json.str.inj (Option.some.inj hsame)).symm
  byUsername := by
    simp only [indexUsersPage]
    rw [if_pos (truthy_of_hasUsername hnew.named)]
    exact hexact.byUsername.add fun _ =>
      (hexact.byUsername.lookup_eq_none_iff trivial).mpr hnew.username
  byExternalId := by
    have hfree : externalIdOf user ≠ [] →
        listing.byExternalId.lookup (externalIdOf user) = none := fun hlinked =>
      (hexact.byExternalId.lookup_eq_none_iff hlinked).mpr (hnew.externalId hlinked)
    simp only [indexUsersPage]
    split_ifs with htruthy
    · exact hexact.byExternalId.add hfree
    · exact hexact.byExternalId.skip fun hlinked =>
        htruthy (truthy_of_externalIdOf hlinked)

/-- Users that are indexed one after another are all in the listing. -/
theorem foldlM_index {users : List Dict} {next : Listing} (hexact : listing.Exact)
    (hindex : users.foldlM indexUniqueUser listing = .ok next) :
    next.Exact ∧ next.users = listing.users ++ users := by
  induction users generalizing listing with
  | nil =>
      obtain rfl := Except.ok.inj hindex
      exact ⟨hexact, (List.append_nil _).symm⟩
  | cons user users ih =>
      rw [List.foldlM_cons] at hindex
      cases hfirst : indexUniqueUser listing user with
      | error error => simp [hfirst, bind, Except.bind] at hindex
      | ok middle =>
          rw [hfirst] at hindex
          obtain ⟨hnew, userId, huserId, rfl⟩ := hexact.indexUniqueUser_eq_ok_iff.mp hfirst
          obtain ⟨hnext, husers⟩ := ih (hexact.index hnew huserId) hindex
          exact ⟨hnext, by rw [husers, indexUsersPage, List.append_assoc]; rfl⟩

/-- Unambiguous users can be indexed. -/
theorem exists_foldlM_index {users : List Dict} (hexact : listing.Exact)
    (husers : Unambiguous (listing.users ++ users)) :
    ∃ next, users.foldlM indexUniqueUser listing = .ok next := by
  induction users generalizing listing with
  | nil => exact ⟨listing, rfl⟩
  | cons user users ih =>
      have hsplit : listing.users ++ user :: users = (listing.users ++ [user]) ++ users := by
        rw [List.append_assoc]
        rfl
      rw [hsplit] at husers
      obtain ⟨-, hnew⟩ := Unambiguous.snoc_iff.mp
        (husers.sublist (List.sublist_append_left _ _))
      obtain ⟨userId, huserId⟩ := exists_str_of_isSafeUserId hnew.safe
      have hfirst := hexact.indexUniqueUser_eq_ok_iff.mpr ⟨hnew, userId, huserId, rfl⟩
      obtain ⟨next, hnext⟩ := ih (hexact.index hnew huserId) husers
      exact ⟨next, by rw [List.foldlM_cons, hfirst]; exact hnext⟩

theorem usernameMatch_eq_some_iff (hexact : listing.Exact) {username : PyStr} :
    listing.usernameMatch username = some user ↔
      user ∈ listing.users ∧ usernameOf user = username :=
  hexact.byUsername.match_eq_some_iff trivial

theorem externalIdMatch_eq_some_iff (hexact : listing.Exact) {externalId : PyStr}
    (hlinked : externalId ≠ []) :
    listing.externalIdMatch externalId = some user ↔
      user ∈ listing.users ∧ externalIdOf user = externalId :=
  hexact.byExternalId.match_eq_some_iff hlinked

end Listing.Exact

end SsfTransmitter.Scim
