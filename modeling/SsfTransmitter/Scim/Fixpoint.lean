import SsfTransmitter.Scim.OrderIndependence
import SsfTransmitter.Scim.Settled

/-!
# A clean sync is a fixpoint

A run without conflicts leaves a directory in which every source user has an account of
its own that needs no update.  A run over such a directory writes nothing.
-/

namespace SsfTransmitter.Scim

open SsfTransmitter.Core
open SsfTransmitter.Python

/-! ## Settled directories -/

section Settled

variable [PyRuntime]
variable {settings : Settings} {sendable : Request → Bool} {listing : Listing}
variable {directory users : List Dict} {user : Dict}

/-- The account of a user that needs no update, and how much is left out of it. -/
def Rests (settings : Settings) (directory : List Dict) (user : Dict) (skipped : ℕ) : Prop :=
  ∃ account ∈ directory, externalIdOf account = externalIdOf user ∧
    (∀ other ∈ directory, usernameOf other = usernameOf user → other = account) ∧
      ∃ diffs, fieldDiffs account user true = .ok diffs ∧ actsOn settings diffs = false ∧
        skipped = (skippedCounts settings diffs).outOfScopeDiffs

/-- A directory in which every user has an account of its own that needs no update. -/
structure SettledFor (settings : Settings) (skipped : Dict → ℕ) (users directory : List Dict) :
    Prop where
  unambiguous : Unambiguous directory
  logged : ∀ user ∈ users, logUserRef settings user = .ok ()
  rests : ∀ user ∈ users, Rests settings directory user (skipped user)

/-- The user is matched by its externalId. -/
theorem match_of_rests {skipped : ℕ} (hexact : listing.Exact)
    (hlinked : externalIdOf user ≠ []) (hrests : Rests settings listing.users user skipped) :
    ∃ position account diffs, listing.users[position]? = some account ∧
      matchAppleUser listing listing.users user = .ok (.matched position false) ∧
        fieldDiffs account user true = .ok diffs ∧ actsOn settings diffs = false ∧
          skipped = (skippedCounts settings diffs).outOfScopeDiffs := by
  obtain ⟨account, haccount, hsame, hnamed, diffs, hdiffs, hsettled, hskipped⟩ := hrests
  have honly : ∀ other ∈ listing.users, externalIdOf other = externalIdOf user →
      other = account := by
    intro other hother hexternalId
    exact hexact.unambiguous.eq_of_externalId hother haccount (hexternalId ▸ hlinked)
      (hexternalId.trans hsame.symm)
  obtain ⟨found, hmatches, hmatched⟩ := exists_matches hexact hlinked
  have hmatch := hmatched listing.users aligned_self
  cases hmatches with
  | conflict hlinkedMem hexternalId hnamedMem husername hother =>
      refine absurd ?_ hother
      rw [honly _ hlinkedMem hexternalId, hnamed _ hnamedMem husername]
  | absent hexternalId _ => exact absurd hsame (hexternalId account haccount)
  | linked hrecord hexternalId _ =>
      obtain rfl := honly _ (List.mem_of_getElem? hrecord) hexternalId
      exact ⟨_, _, diffs, hrecord, hmatch, hdiffs, hsettled, hskipped⟩
  | named _ hexternalId _ => exact absurd hsame (hexternalId account haccount)

/-- What is counted for a user that needs no update. -/
def restCounts (skipped : ℕ) : SyncResult :=
  { unchanged := 1, outOfScopeDiffs := skipped }

omit [PyRuntime] in
theorem skippedCounts_add_same (diffs : Diffs) :
    skippedCounts settings diffs + SyncResult.same 0 =
      restCounts (skippedCounts settings diffs).outOfScopeDiffs := by
  rw [skippedCounts]
  split_ifs <;> rfl

/-- Nothing is planned for a user whose account needs no update. -/
theorem planTurn_of_rests {skipped : ℕ} (hexact : listing.Exact)
    (hlinked : externalIdOf user ≠ []) (hlog : logUserRef settings user = .ok ())
    (hrests : Rests settings listing.users user skipped) :
    planTurn settings sendable listing user = .ok { counts := restCounts skipped } := by
  obtain ⟨position, account, diffs, hrecord, hmatch, hdiffs, hsettled, rfl⟩ :=
    match_of_rests hexact hlinked hrests
  rw [planTurn_eq hmatch, planMatched, getD_of_getElem? hrecord, planReconcile, planAllowed,
    hdiffs]
  change planUpdate settings sendable account user false diffs = _
  rw [planUpdate, hsettled, hlog, ← skippedCounts_add_same]
  rfl

/-! ## Runs over a settled directory -/

section Turning

variable {session left : Session} {transcript : Transcript} {outcome : Except PyExc Unit}

theorem Applied.nil_of_settled {record : Dict} {repaired : Bool} {diffs : Diffs}
    (happlied : Applied settings user record repaired diffs session transcript outcome left)
    (hsettled : actsOn settings diffs = false) :
    transcript = [] ∧ left.records = session.records := by
  cases happlied with
  | stopped _ hleft => obtain rfl | rfl := hleft <;> exact ⟨rfl, rfl⟩
  | settled => exact ⟨rfl, rfl⟩
  | sent _ hdiffers _ => cases hsettled.symm.trans hdiffers

/-- A turn for a user whose account needs no update sends nothing. -/
theorem Turn.nil_of_rests {filtered : Bool} {skipped : ℕ} (hexact : listing.Exact)
    (hlinked : externalIdOf user ≠ []) (hrests : Rests settings listing.users user skipped)
    (hrecords : session.records = listing.users)
    (hturn : Turn settings listing filtered user session transcript outcome left) :
    transcript = [] ∧ left.records = listing.users := by
  obtain ⟨position, account, diffs, hrecord, hmatch, hdiffs, hsettled, -⟩ :=
    match_of_rests hexact hlinked hrests
  rw [← hrecords] at hmatch hrecord
  cases hturn with
  | unmatched herror => cases hmatch.symm.trans herror
  | conflict hconflict => cases hmatch.symm.trans hconflict
  | absent habsent => cases hmatch.symm.trans habsent
  | @matched position' recovered transcript outcome left hmatched hrun =>
      obtain ⟨⟨⟩⟩ := Except.ok.inj (hmatch.symm.trans hmatched)
      have hcaught : (caught outcome left).2.records = left.records := by
        rcases outcome with (error | _)
        · cases error <;> rfl
        · rfl
      rw [hcaught, ← hrecords]
      cases hrun with
      | conflict hrecovered => cases hrecovered
      | stopped => exact ⟨rfl, rfl⟩
      | applied _ hdiffs' happlied =>
          rw [getD_of_getElem? hrecord] at hdiffs'
          obtain rfl := Except.ok.inj (hdiffs.symm.trans hdiffs')
          exact happlied.nil_of_settled hsettled
      | unrepaired hrecovered => cases hrecovered
      | repaired hrecovered => cases hrecovered
      | stoppedRepaired hrecovered => cases hrecovered

theorem Turns.nil_of_rests {filtered : Bool} {skipped : Dict → ℕ} (hexact : listing.Exact)
    (hlinked : ∀ user ∈ users, externalIdOf user ≠ [])
    (hrests : ∀ user ∈ users, Rests settings listing.users user (skipped user))
    (hrecords : session.records = listing.users)
    (hturns : Turns settings listing filtered users session transcript outcome left) :
    transcript = [] := by
  induction hturns with
  | done => rfl
  | aborted hturn =>
      exact (hturn.nil_of_rests hexact (hlinked _ List.mem_cons_self)
        (hrests _ List.mem_cons_self) hrecords).1
  | next hturn _ ih =>
      rw [List.forall_mem_cons] at hlinked hrests
      obtain ⟨rfl, hkept⟩ := hturn.nil_of_rests hexact hlinked.1 hrests.1 hrecords
      exact ih hlinked.2 hrests.2 hkept

end Turning

omit [PyRuntime] in
theorem sum_restCounts (skipped : Dict → ℕ) (users : List Dict) :
    (users.map fun user => restCounts (skipped user)).sum =
      { unchanged := users.length, outOfScopeDiffs := (users.map skipped).sum } := by
  induction users with
  | nil => rfl
  | cons user users ih =>
      rw [List.map_cons, List.sum_cons, ih]
      simp [SyncResult.add_def, SyncResult.add, restCounts, Nat.add_comm]

/-- A run over a settled directory counts every user as unchanged. -/
theorem enacted_of_settledFor {skipped : Dict → ℕ} {outcome : Except PyExc SyncResult}
    {after : List Dict} (hexact : listing.Exact) (hlinked : ∀ user ∈ users, externalIdOf user ≠ [])
    (hsettled : SettledFor settings skipped users listing.users)
    (hcompletes : Completes settings sendable listing users outcome after) :
    outcome = .ok { unchanged := users.length, outOfScopeDiffs := (users.map skipped).sum } := by
  have hplan : ∀ user ∈ users,
      planTurn settings sendable listing user = .ok { counts := restCounts (skipped user) } :=
    fun user huser => planTurn_of_rests hexact (hlinked user huser) (hsettled.logged user huser)
      (hsettled.rests user huser)
  cases outcome with
  | error error =>
      exact absurd (fun user huser => (planned_of_planTurn (hplan user huser)).2) hcompletes
  | ok result =>
      rw [← sum_restCounts, hcompletes.result]
      have hcounts : (users.map fun user => (planOf settings sendable listing user).counts) =
          users.map fun user => restCounts (skipped user) :=
        List.map_congr_left fun user huser => by
          rw [(planned_of_planTurn (hplan user huser)).1]
      rw [hcounts]

/-- A run over a settled directory writes nothing. -/
theorem sync_of_settledFor {skipped : Dict → ℕ} {transcript : Transcript}
    {outcome : Except PyExc SyncResult} {left : Session} {after : List Dict}
    (hlist : ∀ start, sendable (.listUsers start) = true) (husers : Identifiable [] [] users)
    (hsettled : SettledFor settings skipped users directory)
    (hruns : Script.Runs (syncUsers settings users) {} transcript outcome left)
    (hfollows : Dialogue.Follows (faithful sendable) directory transcript after) :
    (∀ exchange ∈ transcript, exchange.1.isWrite = false) ∧ after = directory ∧
      outcome =
        .ok { unchanged := users.length, outOfScopeDiffs := (users.map skipped).sum } := by
  have hdirectory := hsettled.unambiguous
  obtain ⟨listing, hindexed, hcompletes⟩ :=
    Script.of_wp_of_follows (wp_syncUsers hlist hdirectory husers) hruns hfollows
  obtain ⟨hexact, hlisted⟩ := Listing.Exact.empty.foldlM_index hindexed
  obtain rfl : listing.users = directory := hlisted
  have hresult := enacted_of_settledFor hexact husers.linked hsettled hcompletes
  obtain ⟨error, hlisting, rfl⟩ | ⟨first, found, middle, second, rfl, hlisting, hrest⟩ :=
    Script.runs_bind_iff.mp hruns
  · cases hresult
  obtain ⟨world, hfirst, hsecond⟩ := Dialogue.follows_append_iff.mp hfollows
  obtain ⟨rfl, -, listing', hfound, hindexed'⟩ :=
    Script.of_wp_of_follows (wp_existingUsers_faithful hlist hdirectory) hlisting hfirst
  obtain rfl := Except.ok.inj (hindexed.symm.trans hindexed')
  obtain rfl := Except.ok.inj hfound
  have hreading := (runs_existingUsers hlisting).1
  have hsilent : second = [] := by
    obtain ⟨_, -, rfl, -⟩ | ⟨inner, -, hturns, -⟩ := runs_syncListed hrest
    · rfl
    · exact hturns.nil_of_rests hexact husers.linked hsettled.rests rfl
  subst hsilent
  refine ⟨?_, hsecond, hresult⟩
  rw [List.append_nil]
  exact fun exchange hexchange => hreading.isWrite_eq_false hexchange

end Settled

/-! ## What a run without conflicts leaves -/

section Clean

variable [PyRuntime]
variable {settings : Settings} {sendable : Request → Bool} {listing : Listing}
variable {directory users : List Dict} {user : Dict} {plan : Plan}

/-- The record that a user takes over. -/
structure Takes (settings : Settings) (directory : List Dict) (user : Dict) (plan : Plan)
    (record : Dict) : Prop where
  held : record ∈ directory
  owned : Owns record user
  only : ∀ other ∈ directory, Owns other user → other = record
  named : ∀ other ∈ directory, usernameOf other = usernameOf user → other = record
  creates : plan.creates = []
  resolved : Resolved settings record user (plan.revise record) plan.counts

/-- A user that is posted. -/
structure Absent (directory : List Dict) (user : Dict) (plan : Plan) : Prop where
  unowned : ∀ record ∈ directory, ¬ Owns record user
  unnamed : ∀ record ∈ directory, usernameOf record ≠ usernameOf user
  plan_eq : plan = { creates := [user], counts := SyncResult.create 0 }

omit [PyRuntime] in
theorem conflicts_planConflict (hplan : planConflict settings user = .ok plan) :
    plan.counts.conflicts ≠ 0 := by
  obtain ⟨_, -, hplan⟩ := bind_eq_ok_iff.mp hplan
  obtain rfl := Except.ok.inj hplan
  exact Nat.succ_ne_zero 0

/-- A turn without a conflict takes over one record or posts the user. -/
theorem takes_or_absent (hexact : listing.Exact) (hlinked : externalIdOf user ≠ [])
    (hplan : planTurn settings sendable listing user = .ok plan)
    (hconflicts : plan.counts.conflicts = 0) :
    (∃ record, Takes settings listing.users user plan record) ∨
      Absent listing.users user plan := by
  obtain ⟨found, hmatches, hmatched⟩ := exists_matches hexact hlinked
  rw [planTurn_eq (hmatched listing.users aligned_self)] at hplan
  cases hmatches with
  | conflict => exact absurd hconflicts (conflicts_planConflict hplan)
  | absent hexternalId husername =>
      refine .inr ⟨?_, husername, ?_⟩
      · rintro record hrecord (hsame | ⟨-, hsame⟩)
        · exact hexternalId record hrecord hsame
        · exact husername record hrecord hsame
      · obtain ⟨_, -, hplan⟩ := bind_eq_ok_iff.mp hplan
        obtain ⟨_, -, hplan⟩ := bind_eq_ok_iff.mp hplan
        exact (Except.ok.inj hplan).symm
  | @linked position record hrecord hexternalId husername =>
      have hheld := List.mem_of_getElem? hrecord
      obtain ⟨userId, hid, -⟩ := hexact.requireId_of_getElem? hrecord
      have hmatchedBy : MatchedBy false record user := hexternalId
      rw [planMatched, getD_of_getElem? hrecord] at hplan
      refine .inl ⟨record, hheld, .inl hexternalId, ?_, husername,
        creates_of_planReconcile hplan, resolved_of_planAllowed hid hmatchedBy hplan⟩
      rintro other hother (hsame | ⟨-, hsame⟩)
      · exact hexact.unambiguous.eq_of_externalId hother hheld (hsame ▸ hlinked)
          (hsame.trans hexternalId.symm)
      · exact husername other hother hsame
  | @named position record hrecord hexternalId husername =>
      have hheld := List.mem_of_getElem? hrecord
      obtain ⟨userId, hid, -⟩ := hexact.requireId_of_getElem? hrecord
      have hnamed : ∀ other ∈ listing.users, usernameOf other = usernameOf user →
          other = record := fun other hother hsame =>
        hexact.unambiguous.eq_of_username hother hheld (hsame.trans husername.symm)
      rw [planMatched, getD_of_getElem? hrecord] at hplan
      have hcreates := creates_of_planReconcile hplan
      rw [planReconcile] at hplan
      split_ifs at hplan with hrefused
      · exact absurd hconflicts (conflicts_planConflict hplan)
      have hmatchedBy : MatchedBy true record user := husername
      refine .inl ⟨record, hheld,
        owns_of_canRecoverByUsername husername (by simpa using hrefused), ?_, hnamed, hcreates,
        resolved_of_planAllowed hid hmatchedBy hplan⟩
      rintro other hother (hsame | ⟨-, hsame⟩)
      · exact absurd hsame (hexternalId other hother)
      · exact hnamed other hother hsame

/-- A run whose turns all went as planned, none with a conflict. -/
structure Clean (settings : Settings) (sendable : Request → Bool) (listing : Listing)
    (users : List Dict) : Prop where
  listed : listing.Exact
  identifiable : Identifiable [] [] users
  planned : ∀ user ∈ users, Planned settings sendable listing user
  conflicts : ∀ user ∈ users, (planOf settings sendable listing user).counts.conflicts = 0

namespace Clean

variable {record account : Dict}

theorem takes_or_absent (hclean : Clean settings sendable listing users) (huser : user ∈ users) :
    (∃ record, Takes settings listing.users user (planOf settings sendable listing user) record) ∨
      Absent listing.users user (planOf settings sendable listing user) :=
  Scim.takes_or_absent hclean.listed (hclean.identifiable.linked user huser)
    (hclean.planned user huser) (hclean.conflicts user huser)

theorem targets (hclean : Clean settings sendable listing users) :
    ∀ user ∈ users, (planOf settings sendable listing user).For listing.users user :=
  fun user huser => for_of_planTurn hclean.listed (hclean.identifiable.linked user huser)
    (hclean.planned user huser)

theorem takes_of_owns (hclean : Clean settings sendable listing users) (huser : user ∈ users)
    (hrecord : record ∈ listing.users) (howns : Owns record user) :
    Takes settings listing.users user (planOf settings sendable listing user) record := by
  obtain ⟨taken, htakes⟩ | habsent := hclean.takes_or_absent huser
  · obtain rfl := htakes.only record hrecord howns
    exact htakes
  · exact absurd howns (habsent.unowned record hrecord)

theorem owns_of_username (hclean : Clean settings sendable listing users) (huser : user ∈ users)
    (hrecord : record ∈ listing.users) (hsame : usernameOf record = usernameOf user) :
    Owns record user := by
  obtain ⟨taken, htakes⟩ | habsent := hclean.takes_or_absent huser
  · obtain rfl := htakes.named record hrecord hsame
    exact htakes.owned
  · exact absurd hsame (habsent.unnamed record hrecord)

/-- The account that a user owns is revised by the user's turn only. -/
theorem reviseAll_of_owns (hclean : Clean settings sendable listing users)
    (huser : user ∈ users) (hrecord : record ∈ listing.users) (howns : Owns record user) :
    reviseAll (planOf settings sendable listing) users record =
      (planOf settings sendable listing user).revise record := by
  obtain ⟨before, later, rfl⟩ := List.append_of_mem huser
  have hperm : (before ++ user :: later).Perm ((before ++ later) ++ [user]) :=
    List.perm_middle.trans (List.perm_append_singleton _ _).symm
  rw [reviseAll_perm hclean.listed.unambiguous hclean.identifiable hperm hclean.targets,
    reviseAll_snoc]
  refine congrArg _ (Scim.reviseAll_of_owns (fun other hother => hclean.targets other ?_)
    hclean.listed.unambiguous hrecord ?_)
  · exact hperm.mem_iff.mpr (List.mem_append_left _ hother)
  · exact not_owns_of_owns (hclean.identifiable.perm hperm) howns

/-- An account of the directory is left as it was, or a user takes it over. -/
theorem revised_cases (hclean : Clean settings sendable listing users)
    (hrecord : record ∈ listing.users) :
    (reviseAll (planOf settings sendable listing) users record = record ∧
        ∀ user ∈ users, ¬ Owns record user) ∨
      ∃ user ∈ users, Owns record user ∧
        Resolved settings record user (reviseAll (planOf settings sendable listing) users record)
          (planOf settings sendable listing user).counts := by
  by_cases howned : ∃ user ∈ users, Owns record user
  · obtain ⟨user, huser, howns⟩ := howned
    refine .inr ⟨user, huser, howns, ?_⟩
    rw [hclean.reviseAll_of_owns huser hrecord howns]
    exact (hclean.takes_of_owns huser hrecord howns).resolved
  · have hnone : ∀ user ∈ users, ¬ Owns record user :=
      fun user huser howns => howned ⟨user, huser, howns⟩
    exact .inl ⟨Scim.reviseAll_of_owns hclean.targets hclean.listed.unambiguous hrecord hnone,
      hnone⟩

/-- Who is posted is absent from the directory. -/
theorem absent_of_mem_creates (hclean : Clean settings sendable listing users) {source : Dict}
    (hsource : source ∈ users.flatMap fun user =>
      (planOf settings sendable listing user).creates) :
    source ∈ users ∧
      Absent listing.users source (planOf settings sendable listing source) := by
  obtain ⟨user, huser, hcreates⟩ := List.mem_flatMap.mp hsource
  obtain ⟨record, htakes⟩ | habsent := hclean.takes_or_absent huser
  · rw [htakes.creates] at hcreates
    cases hcreates
  · rw [habsent.plan_eq] at hcreates
    obtain rfl := List.mem_singleton.mp hcreates
    exact ⟨huser, habsent⟩

theorem sublist_creates (hclean : Clean settings sendable listing users) :
    (users.flatMap fun user => (planOf settings sendable listing user).creates).Sublist users := by
  have hone : ∀ user ∈ users,
      (planOf settings sendable listing user).creates.Sublist [user] := by
    intro user huser
    obtain ⟨record, htakes⟩ | habsent := hclean.takes_or_absent huser
    · rw [htakes.creates]
      exact List.nil_sublist _
    · rw [habsent.plan_eq]
  clear hclean
  induction users with
  | nil => exact .slnil
  | cons user users ih =>
      rw [List.forall_mem_cons] at hone
      rw [List.flatMap_cons]
      exact hone.1.append (ih hone.2)

end Clean

/-! ## Identities after the run -/

/-- A normalized member that identifies accounts. -/
structure Identifies (settings : Settings) (directory users : List Dict)
    (keyOf : Dict → PyStr) : Prop where
  revised : ∀ {record user account : Dict} {counts : SyncResult},
    Resolved settings record user account counts →
      keyOf account = keyOf record ∨ keyOf account = keyOf user
  owned : ∀ record ∈ directory, ∀ user ∈ users, keyOf record = keyOf user → Owns record user
  users : (users.map keyOf).Nodup
  posted : ∀ {source account : Dict}, Posted source account → keyOf account = keyOf source

namespace Clean

variable {keyOf : Dict → PyStr} {record other : Dict} {created : List Dict}

/-- An account with the key of a user is owned by the user. -/
theorem owns_of_key (hclean : Clean settings sendable listing users)
    (hkeys : Identifies settings listing.users users keyOf) (huser : user ∈ users)
    (hrecord : record ∈ listing.users)
    (hsame : keyOf (reviseAll (planOf settings sendable listing) users record) = keyOf user) :
    Owns record user := by
  obtain ⟨hkept, -⟩ | ⟨owner, howner, howns, hresolved⟩ := hclean.revised_cases hrecord
  · rw [hkept] at hsame
    exact hkeys.owned record hrecord user huser hsame
  · obtain hold | hnew := hkeys.revised hresolved
    · exact hkeys.owned record hrecord user huser (hold.symm.trans hsame)
    · obtain rfl := List.inj_on_of_nodup_map hkeys.users howner huser (hnew.symm.trans hsame)
      exact howns

theorem eq_of_key (hclean : Clean settings sendable listing users)
    (hkeys : Identifies settings listing.users users keyOf) (hrecord : record ∈ listing.users)
    (hother : other ∈ listing.users)
    (hsame : keyOf (reviseAll (planOf settings sendable listing) users record) =
      keyOf (reviseAll (planOf settings sendable listing) users other))
    (hbefore : keyOf record = keyOf (reviseAll (planOf settings sendable listing) users record) →
      keyOf record = keyOf other → record = other) : record = other := by
  have htaken : ∀ {first second user : Dict}, first ∈ listing.users → second ∈ listing.users →
      user ∈ users → Owns first user → Owns second user → first = second := by
    intro first second user hfirst hsecond huser howns howns'
    have htakes := hclean.takes_of_owns huser hfirst howns
    exact (htakes.only second hsecond howns').symm
  have hcases : ∀ account ∈ listing.users,
      keyOf (reviseAll (planOf settings sendable listing) users account) = keyOf account ∨
        ∃ user ∈ users, Owns account user ∧
          keyOf (reviseAll (planOf settings sendable listing) users account) = keyOf user := by
    intro account haccount
    obtain ⟨hkept, -⟩ | ⟨user, huser, howns, hresolved⟩ := hclean.revised_cases haccount
    · exact .inl (congrArg keyOf hkept)
    · exact (hkeys.revised hresolved).imp_right fun hnew => ⟨user, huser, howns, hnew⟩
  obtain hold | ⟨user, huser, howns, hnew⟩ := hcases record hrecord
  · obtain hold' | ⟨user, huser, howns, hnew⟩ := hcases other hother
    · exact hbefore hold.symm (hold.symm.trans (hsame.trans hold'))
    · exact htaken hrecord hother huser
        (hclean.owns_of_key hkeys huser hrecord (hsame.trans hnew)) howns
  · exact htaken hrecord hother huser howns
      (hclean.owns_of_key hkeys huser hother (hsame.symm.trans hnew))

theorem map_key_of_posted (hkeys : Identifies settings directory users keyOf)
    {sources : List Dict} (hposted : List.Forall₂ Posted sources created) :
    created.map keyOf = sources.map keyOf := by
  induction hposted with
  | nil => rfl
  | cons hfirst _ ih => rw [List.map_cons, List.map_cons, ih, hkeys.posted hfirst]

/-- A member that identified the accounts before the run identifies those after it. -/
theorem nodup_keys (hclean : Clean settings sendable listing users)
    (hkeys : Identifies settings listing.users users keyOf) (relevant : PyStr → Bool)
    (hbefore : ((listing.users.map keyOf).filter relevant).Nodup)
    (hposted : List.Forall₂ Posted
      (users.flatMap fun user => (planOf settings sendable listing user).creates) created) :
    (((listing.users.map (reviseAll (planOf settings sendable listing) users) ++ created).map
      keyOf).filter relevant).Nodup := by
  rw [List.map_append, List.filter_append, map_key_of_posted hkeys hposted, List.nodup_append]
  refine ⟨?_, ((hkeys.users.sublist (hclean.sublist_creates.map keyOf)).filter _), ?_⟩
  · rw [List.map_map, List.filter_map]
    refine List.Nodup.map_on ?_ (hclean.listed.unambiguous.nodup.filter _)
    intro record hrecord other hother hsame
    rw [List.mem_filter] at hrecord hother
    refine hclean.eq_of_key hkeys hrecord.1 hother.1 hsame fun hkept hold => ?_
    rw [List.filter_map] at hbefore
    have hrelevant : relevant (keyOf record) = true := hkept ▸ hrecord.2
    have hrelevant' : relevant (keyOf other) = true := hold ▸ hrelevant
    exact List.inj_on_of_nodup_map hbefore (List.mem_filter.mpr ⟨hrecord.1, hrelevant⟩)
      (List.mem_filter.mpr ⟨hother.1, hrelevant'⟩) hold
  · rintro key hkey _ hsource rfl
    obtain ⟨account, haccount, rfl⟩ := List.mem_map.mp (List.mem_filter.mp hkey).1
    obtain ⟨record, hrecord, rfl⟩ := List.mem_map.mp haccount
    obtain ⟨source, hsource, hsame⟩ := List.mem_map.mp (List.mem_filter.mp hsource).1
    obtain ⟨huser, habsent⟩ := hclean.absent_of_mem_creates hsource
    exact habsent.unowned record hrecord (hclean.owns_of_key hkeys huser hrecord hsame.symm)

theorem identifies_usernames (hclean : Clean settings sendable listing users) :
    Identifies settings listing.users users usernameOf where
  revised hresolved := hresolved.username
  owned _ hrecord _ huser hsame := hclean.owns_of_username huser hrecord hsame
  users := hclean.identifiable.usernames
  posted := by
    rintro source _ ⟨userId, rfl⟩
    exact congrArg normalizeIdentifier (Dict.get?_set_of_ne _ _ (by decide))

theorem identifies_externalIds (hclean : Clean settings sendable listing users) :
    Identifies settings listing.users users externalIdOf where
  revised hresolved := .inr hresolved.linked
  owned _ _ _ _ hsame := .inl hsame
  users := hclean.identifiable.externalIds
  posted := by
    rintro source _ ⟨userId, rfl⟩
    exact congrArg trimmed (Dict.get?_set_of_ne _ _ (by decide))

omit [PyRuntime] in
theorem exists_source_of_posted {sources : List Dict}
    (hposted : List.Forall₂ Posted sources created) {account : Dict}
    (haccount : account ∈ created) : ∃ source ∈ sources, Posted source account := by
  induction hposted with
  | nil => cases haccount
  | @cons source account' sources created hfirst _ ih =>
      obtain rfl | haccount := List.mem_cons.mp haccount
      · exact ⟨source, List.mem_cons_self, hfirst⟩
      · obtain ⟨other, hother, hpost⟩ := ih haccount
        exact ⟨other, List.mem_cons_of_mem _ hother, hpost⟩

omit [PyRuntime] in
theorem exists_posted {sources : List Dict} (hposted : List.Forall₂ Posted sources created)
    {source : Dict} (hsource : source ∈ sources) :
    ∃ account ∈ created, Posted source account := by
  induction hposted with
  | nil => cases hsource
  | @cons source' account sources created hfirst _ ih =>
      obtain rfl | hsource := List.mem_cons.mp hsource
      · exact ⟨account, List.mem_cons_self, hfirst⟩
      · obtain ⟨other, hother, hpost⟩ := ih hsource
        exact ⟨other, List.mem_cons_of_mem _ hother, hpost⟩

/-- The directory after the run is one that a listing can be indexed from. -/
theorem unambiguous (hclean : Clean settings sendable listing users)
    (hposted : List.Forall₂ Posted
      (users.flatMap fun user => (planOf settings sendable listing user).creates) created)
    (hdistinct : Distinct
      (listing.users.map (reviseAll (planOf settings sendable listing) users) ++ created)) :
    Unambiguous
      (listing.users.map (reviseAll (planOf settings sendable listing) users) ++ created) where
  safe := hdistinct.safe
  named := by
    refine List.forall_mem_append.mpr ⟨List.forall_mem_map.mpr fun record hrecord => ?_,
      fun account haccount => ?_⟩
    · have hnamed := hclean.listed.unambiguous.named record hrecord
      obtain ⟨hkept, -⟩ | ⟨user, huser, -, hresolved⟩ := hclean.revised_cases hrecord
      · rwa [hkept]
      · exact hresolved.named hnamed (hclean.identifiable.named user huser)
    · obtain ⟨source, hsource, userId, rfl⟩ := exists_source_of_posted hposted haccount
      have hnamed := hclean.identifiable.named source (hclean.absent_of_mem_creates hsource).1
      exact (hasUsername_congr (Dict.get?_set_of_ne _ _ (by decide))).trans hnamed
  ids := hdistinct.ids
  usernames := by
    have hbefore : ((listing.users.map usernameOf).filter fun _ => true).Nodup := by
      rw [List.filter_true]
      exact hclean.listed.unambiguous.usernames
    have hafter := hclean.nodup_keys hclean.identifies_usernames (fun _ => true) hbefore hposted
    rwa [List.filter_true] at hafter
  externalIds :=
    hclean.nodup_keys hclean.identifies_externalIds _ hclean.listed.unambiguous.externalIds hposted

end Clean

theorem log_of_planTurn (hplan : planTurn settings sendable listing user = .ok plan) :
    logUserRef settings user = .ok () := by
  have hconflict : ∀ {plan : Plan}, planConflict settings user = .ok plan →
      logUserRef settings user = .ok () := by
    intro plan hplan
    obtain ⟨_, hlog, -⟩ := bind_eq_ok_iff.mp hplan
    exact hlog
  obtain ⟨found, -, hplan⟩ := bind_eq_ok_iff.mp hplan
  cases found with
  | conflict => exact hconflict hplan
  | absent =>
      obtain ⟨_, hlog, -⟩ := bind_eq_ok_iff.mp hplan
      exact hlog
  | matched position recoveredByUsername =>
      dsimp only at hplan
      rw [planReconcile] at hplan
      split_ifs at hplan
      · exact hconflict hplan
      · exact log_of_planAllowed hplan

/-- The directory after the run needs no update for any of its users. -/
theorem Clean.settledFor {created : List Dict} (hclean : Clean settings sendable listing users)
    (hnames : ∀ user ∈ users, hasObjectName user = true)
    (hposted : List.Forall₂ Posted
      (users.flatMap fun user => (planOf settings sendable listing user).creates) created)
    (hdistinct : Distinct
      (listing.users.map (reviseAll (planOf settings sendable listing) users) ++ created)) :
    SettledFor settings
      (fun user => (planOf settings sendable listing user).counts.outOfScopeDiffs) users
      (listing.users.map (reviseAll (planOf settings sendable listing) users) ++ created) where
  unambiguous := hclean.unambiguous hposted hdistinct
  logged user huser := log_of_planTurn (hclean.planned user huser)
  rests := by
    intro user huser
    have hunambiguous := hclean.unambiguous hposted hdistinct
    obtain ⟨record, htakes⟩ | habsent := hclean.takes_or_absent huser
    · have hrevised := hclean.reviseAll_of_owns huser htakes.held htakes.owned
      have hresolved := htakes.resolved
      rw [← hrevised] at hresolved
      refine ⟨_, List.mem_append_left _ (List.mem_map_of_mem htakes.held), hresolved.linked,
        fun other hother hsame => ?_, hresolved.settled⟩
      obtain hkept | hother := List.mem_append.mp hother
      · obtain ⟨record', hrecord', rfl⟩ := List.mem_map.mp hkept
        rw [htakes.only record' hrecord'
          (hclean.owns_of_key hclean.identifies_usernames huser hrecord' hsame)]
      · obtain ⟨source, hsource, hpost⟩ := exists_source_of_posted hposted hother
        obtain ⟨hmem, habsent⟩ := hclean.absent_of_mem_creates hsource
        have hnamed := hclean.identifies_usernames.posted hpost
        obtain rfl := List.inj_on_of_nodup_map hclean.identifiable.usernames hmem huser
          (hnamed.symm.trans hsame)
        exact absurd htakes.owned (habsent.unowned record htakes.held)
    · have hsource : user ∈ users.flatMap fun user =>
          (planOf settings sendable listing user).creates := by
        refine List.mem_flatMap.mpr ⟨user, huser, ?_⟩
        rw [habsent.plan_eq]
        exact List.mem_cons_self
      obtain ⟨account, haccount, hpost⟩ := exists_posted hposted hsource
      have hheld := List.mem_append_right
        (listing.users.map (reviseAll (planOf settings sendable listing) users)) haccount
      have hresolved : Resolved settings user user account (SyncResult.create 0) :=
        resolved_of_posted (hnames user huser) hpost
      refine ⟨account, hheld, hresolved.linked, fun other hother hsame => ?_, ?_⟩
      · refine hunambiguous.eq_of_username hother hheld (hsame.trans ?_)
        exact (hclean.identifies_usernames.posted hpost).symm
      · rw [habsent.plan_eq]
        exact hresolved.settled

/-! ## The second run -/

omit [PyRuntime] in
theorem conflicts_of_sum {counts : List SyncResult} (hsum : counts.sum.conflicts = 0) :
    ∀ count ∈ counts, count.conflicts = 0 := by
  induction counts with
  | nil => exact List.forall_mem_nil _
  | cons count counts ih =>
      have hadd : count.conflicts + counts.sum.conflicts = 0 := hsum
      rw [Nat.add_eq_zero_iff] at hadd
      exact List.forall_mem_cons.mpr ⟨hadd.1, ih hadd.2⟩

omit [PyRuntime] in
theorem outOfScopeDiffs_sum (counts : List SyncResult) :
    counts.sum.outOfScopeDiffs = (counts.map SyncResult.outOfScopeDiffs).sum := by
  induction counts with
  | nil => rfl
  | cons count counts ih =>
      rw [List.sum_cons, List.map_cons, List.sum_cons, ← ih]
      rfl

/-- A run over the directory that a run without conflicts has left writes nothing, and counts
every user as unchanged and what is out of scope as before. -/
theorem syncUsers_fixpoint (settings : Settings) (sendable : Request → Bool)
    (hlist : ∀ start, sendable (.listUsers start) = true) (hdirectory : Unambiguous directory)
    (husers : Identifiable [] [] users) (hnames : ∀ user ∈ users, hasObjectName user = true)
    {result : SyncResult} {outcome : Except PyExc SyncResult} {after after' : List Dict}
    (hfirst : SyncsTo settings sendable users directory (.ok result) after)
    (hconflicts : result.conflicts = 0) {transcript : Transcript} {left : Session}
    (hruns : Script.Runs (syncUsers settings users) {} transcript outcome left)
    (hfollows : Dialogue.Follows (faithful sendable) after transcript after') :
    (∀ exchange ∈ transcript, exchange.1.isWrite = false) ∧ after' = after ∧
      outcome =
        .ok { unchanged := users.length, outOfScopeDiffs := result.outOfScopeDiffs } := by
  obtain ⟨transcript', left', hruns', hfollows'⟩ := hfirst
  obtain ⟨listing, hindexed, hcompletes⟩ :=
    Script.of_wp_of_follows (wp_syncUsers hlist hdirectory husers) hruns' hfollows'
  obtain ⟨hexact, hlisted⟩ := Listing.Exact.empty.foldlM_index hindexed
  obtain rfl : listing.users = directory := hlisted
  obtain ⟨hplanned, rfl, ⟨created, rfl, hposted⟩, hdistinct⟩ := hcompletes
  have hclean : Clean settings sendable listing users :=
    ⟨hexact, husers, hplanned, List.forall_mem_map.mp (conflicts_of_sum hconflicts)⟩
  have hsettled := hclean.settledFor hnames hposted hdistinct
  rw [outOfScopeDiffs_sum, List.map_map]
  exact sync_of_settledFor hlist husers hsettled hruns hfollows

end Clean

/-! The directory that the run of the sample leaves is listed, and that is all. -/

section Sample

open SsfTransmitter.Python.Ascii

def settledDirectory : List Dict :=
  [emailUpdate.rewrite namelessAccount, turingSource.set "id" (.str "apple-2")]

def settledAnswers (_ : ℕ) : Outcome :=
  usersPage settledDirectory 2 1 2

theorem syncUsers_fixpoint_sample :
    ∃ transcript outcome left,
      Script.Runs (syncUsers ⟨.emailsOnly, false, false, false⟩ [lovelaceSource, turingSource]) {}
          transcript outcome left ∧
        Dialogue.Follows (faithful encodes) settledDirectory transcript settledDirectory ∧
          (∀ exchange ∈ transcript, exchange.1.isWrite = false) ∧
            outcome = .ok { unchanged := 2, outOfScopeDiffs := 1 } := by
  have hrun : Script.converse settledAnswers
      (syncUsers ⟨.emailsOnly, false, false, false⟩ [lovelaceSource, turingSource]) {} =
      ([(.listUsers none, settledAnswers 0)],
        .ok { unchanged := 2, outOfScopeDiffs := 1 },
        ⟨settledDirectory, { unchanged := 2, outOfScopeDiffs := 1 }⟩) := by
    decide +kernel
  have hruns := Script.runs_converse settledAnswers
    (syncUsers ⟨.emailsOnly, false, false, false⟩ [lovelaceSource, turingSource]) {}
  rw [hrun] at hruns
  have hfollows : Dialogue.Follows (faithful encodes) settledDirectory
      [(.listUsers none, settledAnswers 0)] settledDirectory :=
    ⟨settledDirectory, moves_of_serves rfl (serves_listUsers settledDirectory), rfl⟩
  obtain ⟨hreads, -, houtcome⟩ := syncUsers_fixpoint ⟨.emailsOnly, false, false, false⟩ encodes
    (fun _ => rfl) unambiguous_nameless identifiable_turing (by decide +kernel) syncsTo_turing rfl
    hruns hfollows
  exact ⟨_, _, _, hruns, hfollows, hreads, houtcome⟩

end Sample

end SsfTransmitter.Scim
