import SsfTransmitter.Python.Ascii
import SsfTransmitter.Scim.Loop
import SsfTransmitter.Scim.Matching
import SsfTransmitter.Scim.Server

/-!
# Whose account a write goes to

An update goes to an account that Apple showed with the externalId of the source user, or
it is the repair that gives an unlinked account with the user's userName that externalId.
-/

namespace SsfTransmitter.Scim

open SsfTransmitter.Core
open SsfTransmitter.Python

section Ownership

variable [PyRuntime]

/-- Why an update on behalf of a source user may be sent to an account. -/
inductive Entitled (settings : Settings) (before : Transcript) (source : Dict)
    (userId : PyStr) : Request → Prop
  | linked {record : Dict} {request : Request} (hreceived : Received before record)
      (hid : record.get? "id" = some (.str userId))
      (hexternalId : externalIdOf record = externalIdOf source) :
      Entitled settings before source userId request
  | repair {record : Dict} (hreceived : Received before record)
      (hid : record.get? "id" = some (.str userId)) (hunlinked : externalIdOf record = [])
      (husername : usernameOf record = usernameOf source)
      (hallowed : settings.appleScimAllowUsernameRecovery = true) :
      Entitled settings before source userId (repairRequest source userId)

/-- Only this user is written, and only to accounts that are the user's. -/
def WritesFor (settings : Settings) (user : Dict) (before transcript : Transcript) : Prop :=
  Throughout (fun earlier exchange => ∀ source, exchange.1.writer? = some source →
    source = user ∧ ∀ userId, exchange.1.account? = some userId →
      Entitled settings (before ++ earlier) user userId exchange.1) transcript

namespace WritesFor

variable {settings : Settings} {user : Dict} {before first second : Transcript}

theorem nil : WritesFor settings user before [] :=
  Throughout.nil

theorem append (hfirst : WritesFor settings user before first)
    (hsecond : WritesFor settings user (before ++ first) second) :
    WritesFor settings user before (first ++ second) := by
  refine Throughout.append hfirst (Throughout.mono hsecond fun earlier exchange hwrites => ?_)
  rwa [List.append_assoc] at hwrites

theorem single {exchange : Exchange Request Outcome}
    (hwrites : ∀ source, exchange.1.writer? = some source →
      source = user ∧ ∀ userId, exchange.1.account? = some userId →
        Entitled settings before user userId exchange.1) :
    WritesFor settings user before [exchange] := by
  refine Throughout.nil.snoc ?_
  rwa [List.append_nil]

theorem of_reading (hreading : Reading first) : WritesFor settings user before first := by
  refine Throughout.mono hreading fun earlier exchange hreads source hsource => ?_
  have hnotWrite := hreads.notWrite
  rw [Request.isWrite, hsource] at hnotWrite
  cases hnotWrite

/-- Creating a user is not an update of an account. -/
theorem create {source : Dict} {answer : Outcome}
    (hsecond : WritesFor settings source (before ++ [(.createUser source, answer)]) second) :
    WritesFor settings source before ((.createUser source, answer) :: second) := by
  have hcreate : WritesFor settings source before [(.createUser source, answer)] :=
    single (by rintro _ ⟨rfl⟩; exact ⟨rfl, nofun⟩)
  exact hcreate.append hsecond

end WritesFor

/-! ## Repairs -/

section Repairing

variable {settings : Settings} {user : Dict} {position : ℕ} {session left : Session}
variable {before transcript : Transcript}

/-- A record that a repair read back for the user. -/
structure Repaired (user record : Dict) (transcript : Transcript) (verified : Dict) :
    Prop where
  received : Received transcript verified
  id : verified.get? "id" = record.get? "id"
  externalId : externalIdOf verified = externalIdOf user
  username : usernameOf verified = usernameOf user
  objectName : hasObjectName verified = true

theorem RepairDue.unlinked_record {record : Dict} (hdue : RepairDue settings user record) :
    externalIdOf record = [] ∧ externalIdOf user ≠ [] ∧
      settings.appleScimAllowUsernameRecovery = true := by
  have hallowed := hdue.allowed
  have hunlinked := hdue.unlinked
  rw [canRecoverByUsername] at hallowed
  change (if (externalIdOf user).isEmpty = true then false else _) = true at hallowed
  split_ifs at hallowed with hblank hlinked
  · exact absurd (of_decide_eq_true hallowed) hunlinked
  · refine ⟨?_, ?_, hallowed⟩
    · simpa using hlinked
    · simpa using hblank

theorem verifiedRepair_eq_some {userId : PyStr} {value : Json} {verified : Dict}
    (hverified : verifiedRepair userId user value = some verified) :
    value = .dict verified ∧ verified.get? "id" = some (.str userId) ∧
      externalIdOf verified = externalIdOf user ∧ usernameOf verified = usernameOf user ∧
      hasObjectName verified = true := by
  rw [verifiedRepair.eq_def] at hverified
  split at hverified
  · next record =>
    split_ifs at hverified with hagrees
    obtain rfl := Option.some.inj hverified
    exact ⟨rfl, hagrees⟩
  · cases hverified

theorem readBack_eq_some {userId : PyStr} {answer : Outcome} {verified : Dict}
    (hread : readBack userId user answer = .ok (some verified)) :
    answer.usersPage = .ok verified ∧ verified.get? "id" = some (.str userId) ∧
      externalIdOf verified = externalIdOf user ∧ usernameOf verified = usernameOf user ∧
      hasObjectName verified = true := by
  rw [readBack.eq_def] at hread
  split at hread
  · cases hread
  · cases hread
  · split_ifs at hread with hstatus
    · cases hread
    · split at hread
      · cases hread
      · cases hread
      · next value hjson =>
        obtain ⟨rfl, hagrees⟩ := verifiedRepair_eq_some (Except.ok.inj hread)
        refine ⟨?_, hagrees⟩
        rw [not_not] at hstatus
        simp [Outcome.usersPage, hstatus, hjson]

/-- A repair leaves the records, or refreshes its own. -/
theorem RepairRun.records {outcome : Except PyExc Bool}
    (hrun : RepairRun settings user position session transcript outcome left) :
    left.records = session.records ∧ outcome ≠ .ok true ∨ ∃ verified,
      left.records = session.records.set position verified ∧
        left.records.getD position [] = verified ∧
        Repaired user (session.records.getD position []) transcript verified := by
  cases hrun with
  | stopped => exact .inl ⟨rfl, nofun⟩
  | @failed userId answer hid hfailed =>
      refine .inl ⟨?_, ?_⟩
      · exact records_afterUpdate _ _ _ _
      · cases (afterUpdate settings user session answer).1 <;> nofun
  | unreadable => exact .inl ⟨rfl, nofun⟩
  | unverified =>
      refine .inl ⟨rfl, ?_⟩
      cases logUserRef settings user <;> nofun
  | @verified userId response answer record hid hpatched hread =>
      obtain ⟨hpage, hagreed, hexternalId, husername, hname⟩ := readBack_eq_some hread
      refine .inr ⟨record, rfl, getD_set_of_requireId hid _, ?_, ?_, hexternalId, husername,
        hname⟩
      · exact ⟨_, List.mem_cons_of_mem _ List.mem_cons_self, record, hpage, .inl rfl⟩
      · rw [hagreed, requireId_eq_ok_iff.mp hid]

/-- The requests of a repair are the user's. -/
theorem RepairRun.writesFor {outcome : Except PyExc Bool}
    (hrun : RepairRun settings user position session transcript outcome left)
    (hentitled : ∀ userId, requireId (session.records.getD position []) = .ok userId →
      Entitled settings before user userId (repairRequest user userId)) :
    WritesFor settings user before transcript := by
  have hrepair : ∀ {userId : PyStr} {answer : Outcome},
      requireId (session.records.getD position []) = .ok userId →
      WritesFor settings user before [(repairRequest user userId, answer)] := by
    intro userId answer hid
    refine .single ?_
    rintro _ ⟨rfl⟩
    refine ⟨rfl, ?_⟩
    rintro _ ⟨rfl⟩
    exact hentitled userId hid
  have hread : ∀ {earlier : Transcript} {userId : PyStr} {answer : Outcome},
      WritesFor settings user earlier [(.readUser userId, answer)] :=
    fun {_ _ _} => .single nofun
  cases hrun with
  | stopped => exact .nil
  | failed hid => exact hrepair hid
  | unreadable hid => exact (hrepair hid).append hread
  | unverified hid => exact (hrepair hid).append hread
  | verified hid => exact (hrepair hid).append hread

end Repairing

/-! ## Turns -/

section Turning

variable {settings : Settings} {user : Dict} {position : ℕ} {session left : Session}
variable {before transcript : Transcript} {outcome : Except PyExc Unit}

theorem Applied.writesFor {record : Dict} {repaired : Bool} {diffs : Diffs}
    (happlied : Applied settings user record repaired diffs session transcript outcome left)
    (hreceived : Received before record) (hlinked : externalIdOf record = externalIdOf user) :
    WritesFor settings user before transcript := by
  cases happlied with
  | stopped => exact .nil
  | settled => exact .nil
  | sent answer _ hrequest =>
      refine .single fun source hsource => ⟨?_, fun userId huserId => ?_⟩
      · rw [writer?_of_updateRequest hrequest] at hsource
        exact (Option.some.inj hsource).symm
      · obtain ⟨appleId, hid, -⟩ := bind_eq_ok_iff.mp hrequest
        rw [account?_of_updateRequest hid hrequest] at huserId
        obtain rfl := Option.some.inj huserId
        exact .linked hreceived (requireId_eq_ok_iff.mp hid) hlinked

theorem Applied.records_eq {record : Dict} {repaired : Bool} {diffs : Diffs}
    (happlied : Applied settings user record repaired diffs session transcript outcome left) :
    left.records = session.records := by
  cases happlied with
  | stopped _ hleft => obtain rfl | rfl := hleft <;> rfl
  | settled => rfl
  | sent answer => exact records_afterUpdate _ _ _ _

/-- A record that may be reconciled with the user. -/
structure Reconcilable (user record : Dict) (recoveredByUsername : Bool)
    (before : Transcript) : Prop where
  received : Received before record
  linked : recoveredByUsername = false → externalIdOf record = externalIdOf user
  named : externalIdOf record = [] → recoveredByUsername = true →
    usernameOf record = usernameOf user

/-- Reconciling writes for the user only, and leaves the records or refreshes its own. -/
theorem Reconciled.writesFor {recoveredByUsername : Bool}
    (hrun : Reconciled settings user position recoveredByUsername session transcript outcome
      left)
    (hrecord : Reconcilable user (session.records.getD position []) recoveredByUsername
      before) :
    WritesFor settings user before transcript ∧
      (left.records = session.records ∨ ∃ verified,
        left.records = session.records.set position verified ∧
          externalIdOf (session.records.getD position []) = [] ∧ externalIdOf user ≠ [] ∧
          Repaired user (session.records.getD position []) transcript verified) := by
  have hentitled : recoveredByUsername = true →
      RepairDue settings user (session.records.getD position []) → ∀ userId,
        requireId (session.records.getD position []) = .ok userId →
          Entitled settings before user userId (repairRequest user userId) := by
    intro hrecovered hdue userId hid
    obtain ⟨hunlinked, -, hallowed⟩ := hdue.unlinked_record
    exact .repair hrecord.received (requireId_eq_ok_iff.mp hid) hunlinked
      (hrecord.named hunlinked hrecovered) hallowed
  have hrefreshed : RepairDue settings user (session.records.getD position []) →
      ∀ {result : Except PyExc Bool} {first : Transcript} {middle : Session},
        RepairRun settings user position session first result middle →
        (middle.records = session.records ∨ ∃ verified,
          middle.records = session.records.set position verified ∧
          externalIdOf (session.records.getD position []) = [] ∧ externalIdOf user ≠ [] ∧
          Repaired user (session.records.getD position []) first verified) := by
    intro hdue result first middle hrun
    obtain ⟨hunlinked, hlinked, -⟩ := hdue.unlinked_record
    refine hrun.records.imp And.left ?_
    rintro ⟨verified, hrecords, -, hrepaired⟩
    exact ⟨verified, hrecords, hunlinked, hlinked, hrepaired⟩
  cases hrun with
  | conflict => exact ⟨.nil, .inl rfl⟩
  | stopped => exact ⟨.nil, .inl rfl⟩
  | applied hlinked hdiffs happlied =>
      refine ⟨happlied.writesFor hrecord.received ?_, .inl happlied.records_eq⟩
      cases recoveredByUsername with
      | false => exact hrecord.linked rfl
      | true => exact (hlinked rfl).2
  | unrepaired hrecovered hdue hrepair _ =>
      exact ⟨hrepair.writesFor (hentitled hrecovered hdue), hrefreshed hdue hrepair⟩
  | @repaired first second _ _ middle _ hrecovered hdue hrepair _ happlied =>
      obtain ⟨hunlinked, hlinked, -⟩ := hdue.unlinked_record
      obtain ⟨-, hnot⟩ | ⟨verified, hrecords, hheld, hrepaired⟩ := hrepair.records
      · exact absurd rfl hnot
      have hshown : Received (before ++ first) verified :=
        hrepaired.received.mono (List.subset_append_right _ _)
      refine ⟨(hrepair.writesFor (hentitled hrecovered hdue)).append ?_, .inr ⟨verified, ?_,
        hunlinked, hlinked, ?_⟩⟩
      · exact happlied.writesFor (hheld ▸ hshown) (hheld ▸ hrepaired.externalId)
      · rw [happlied.records_eq, hrecords]
      · exact { hrepaired with
          received := hrepaired.received.mono (List.subset_append_left _ _) }
  | stoppedRepaired hrecovered hdue hrepair _ =>
      exact ⟨hrepair.writesFor (hentitled hrecovered hdue), hrefreshed hdue hrepair⟩

end Turning

/-! ## The records that the loop holds -/

/-- A record that took the place of one without an externalId. -/
structure Relinked (original current : Dict) (before : Transcript) : Prop where
  received : Received before current
  id : current.get? "id" = original.get? "id"
  unlinked : externalIdOf original = []
  linked : externalIdOf current ≠ []
  objectName : hasObjectName current = true

/-- The listed records, some of them relinked, and then those that a conflict brought. -/
structure Keeps (listing : Listing) (before : Transcript) (records : List Dict) : Prop where
  length_le : listing.users.length ≤ records.length
  listed : ∀ position original, listing.users[position]? = some original →
    records.getD position [] = original ∨
      Relinked original (records.getD position []) before

namespace Keeps

variable {listing : Listing} {before later : Transcript} {records : List Dict}
variable {position : ℕ} {original : Dict}

theorem start : Keeps listing before listing.users where
  length_le := le_rfl
  listed position original horiginal := by
    left
    rw [List.getD_eq_getElem?_getD, horiginal, Option.getD_some]

theorem mono (hkeeps : Keeps listing before records) :
    Keeps listing (before ++ later) records where
  length_le := hkeeps.length_le
  listed position original horiginal :=
    (hkeeps.listed position original horiginal).imp_right fun hrelinked =>
      { hrelinked with
        received := hrelinked.received.mono (List.subset_append_left _ _) }

theorem aligned (hkeeps : Keeps listing before records) : Aligned records listing.users := by
  intro position original horiginal
  obtain hsame | hrelinked := hkeeps.listed position original horiginal
  · rw [hsame]
  · exact hrelinked.id

/-- A record that was listed with an externalId has not changed. -/
theorem eq_of_linked (hkeeps : Keeps listing before records)
    (horiginal : listing.users[position]? = some original)
    (hlinked : externalIdOf original ≠ []) : records.getD position [] = original := by
  obtain hsame | hrelinked := hkeeps.listed position original horiginal
  · exact hsame
  · exact absurd hrelinked.unlinked hlinked

/-- A record without an externalId has not changed. -/
theorem eq_of_unlinked (hkeeps : Keeps listing before records)
    (horiginal : listing.users[position]? = some original)
    (hunlinked : externalIdOf (records.getD position []) = []) :
    records.getD position [] = original := by
  obtain hsame | hrelinked := hkeeps.listed position original horiginal
  · exact hsame
  · exact absurd hunlinked hrelinked.linked

theorem received (hkeeps : Keeps listing before records)
    (hlisted : ∀ record ∈ listing.users, Received before record)
    (horiginal : listing.users[position]? = some original) :
    Received before (records.getD position []) := by
  obtain hsame | hrelinked := hkeeps.listed position original horiginal
  · rw [hsame]
    exact hlisted original (List.mem_of_getElem? horiginal)
  · exact hrelinked.received

theorem append (hkeeps : Keeps listing before records) (record : Dict) :
    Keeps listing before (records ++ [record]) where
  length_le := by
    rw [List.length_append]
    exact hkeeps.length_le.trans (Nat.le_add_right _ _)
  listed position original horiginal := by
    have hposition := (List.getElem?_eq_some_iff.mp horiginal).1
    rw [List.getD_eq_getElem?_getD,
      List.getElem?_append_left (hposition.trans_le hkeeps.length_le),
      ← List.getD_eq_getElem?_getD]
    exact hkeeps.listed position original horiginal

/-- A repair relinks a record that had no externalId. -/
theorem set {user verified : Dict} (hkeeps : Keeps listing before records)
    (hunlinked : externalIdOf (records.getD position []) = [])
    (hlinked : externalIdOf user ≠ [])
    (hrepaired : Repaired user (records.getD position []) later verified) :
    Keeps listing (before ++ later) (records.set position verified) where
  length_le := by
    rw [List.length_set]
    exact hkeeps.length_le
  listed other original horiginal := by
    by_cases hother : position = other
    · subst hother
      have hposition := (List.getElem?_eq_some_iff.mp horiginal).1
      have hheld : (records.set position verified).getD position [] = verified := by
        rw [List.getD_eq_getElem?_getD,
          List.getElem?_set_self (hposition.trans_le hkeeps.length_le), Option.getD_some]
      have horiginally := hkeeps.eq_of_unlinked horiginal hunlinked
      rw [horiginally] at hunlinked hrepaired
      refine .inr ⟨?_, ?_, hunlinked, ?_, ?_⟩
      · rw [hheld]
        exact hrepaired.received.mono (List.subset_append_right _ _)
      · rw [hheld, hrepaired.id]
      · rw [hheld, hrepaired.externalId]
        exact hlinked
      · rw [hheld]
        exact hrepaired.objectName
    · rw [List.getD_eq_getElem?_getD, List.getElem?_set_ne hother,
        ← List.getD_eq_getElem?_getD]
      exact hkeeps.mono.listed other original horiginal

end Keeps

section Turns

variable {settings : Settings} {listing : Listing} {filtered : Bool} {user : Dict}
variable {session left : Session} {before transcript : Transcript}
variable {outcome : Except PyExc Unit}

omit [PyRuntime] in
theorem records_caught (outcome : Except PyExc Unit) (left : Session) :
    (caught outcome left).2.records = left.records := by
  rw [caught.eq_def]
  split <;> rfl

theorem Reconciled.keeps {position : ℕ} {recoveredByUsername : Bool}
    (hrun : Reconciled settings user position recoveredByUsername session transcript outcome
      left)
    (hrecord : Reconcilable user (session.records.getD position []) recoveredByUsername
      before)
    (hkeeps : Keeps listing before session.records) :
    Keeps listing (before ++ transcript) left.records := by
  obtain ⟨-, hsame | ⟨verified, hrecords, hunlinked, hlinked, hrepaired⟩⟩ :=
    hrun.writesFor hrecord
  · rw [hsame]
    exact hkeeps.mono
  · rw [hrecords]
    exact hkeeps.set hunlinked hlinked hrepaired

theorem ConflictRun.records_eq {result : Except PyExc (Option ℕ)}
    (hrun : ConflictRun settings user session transcript result left)
    (hnone : ∀ position, result ≠ .ok (some position)) : left.records = session.records := by
  cases hrun with
  | raised => rfl
  | failed => rfl
  | conflict => rfl
  | found => exact absurd rfl (hnone _)

/-- What a conflict finds is kept after all other records. -/
theorem ConflictRun.found_record {position : ℕ}
    (hrun : ConflictRun settings user session transcript (.ok (some position)) left) :
    ∃ record, left.records = session.records ++ [record] ∧
      left.records.getD position [] = record ∧ Received transcript record ∧
      isSafeUserId (record.get? "id") = true ∧ usernameOf record = usernameOf user := by
  generalize hresult : (.ok (some position) : Except PyExc (Option ℕ)) = result at hrun
  cases hrun with
  | raised => cases hresult
  | failed => cases hresult
  | conflict => cases hlog : logUserRef settings user <;> simp [hlog, Except.map] at hresult
  | @found record hreading hreceived hsafe husername =>
      obtain rfl := Option.some.inj (Except.ok.inj hresult)
      refine ⟨record, rfl, ?_, hreceived, hsafe, husername⟩
      simp

theorem CreateRun.writesFor {verifyIdentity : Bool}
    (hrun : CreateRun settings user verifyIdentity session transcript outcome left)
    (hkeeps : Keeps listing before session.records) :
    WritesFor settings user before transcript ∧
      Keeps listing (before ++ transcript) left.records := by
  cases hrun with
  | unanswered => exact ⟨.create .nil, hkeeps.mono⟩
  | created hreading => exact ⟨.create (.of_reading hreading), hkeeps.mono⟩
  | unverified hreading => exact ⟨.create (.of_reading hreading), hkeeps.mono⟩
  | raised hreading => exact ⟨.create (.of_reading hreading), hkeeps.mono⟩
  | rejected => exact ⟨.create .nil, hkeeps.mono⟩
  | unresolved hconflict hnone =>
      refine ⟨.create (.of_reading hconflict.reading), ?_⟩
      rw [hconflict.records_eq hnone]
      exact hkeeps.mono
  | @resolved response first second position _ middle _ hconflict hreconciled =>
      obtain ⟨record, hrecords, hheld, hreceived, -, husername⟩ := hconflict.found_record
      have hfound : Reconcilable user (middle.records.getD position []) true
          (before ++ (.createUser user, .response response) :: first) := by
        rw [hheld]
        refine ⟨hreceived.mono ?_, nofun, fun _ _ => husername⟩
        exact List.subset_append_of_subset_right _ (List.subset_cons_self _ _)
      have hmiddle : Keeps listing (before ++ (.createUser user, .response response) :: first)
          middle.records := by
        rw [hrecords]
        exact hkeeps.mono.append record
      have hsplit : before ++ (.createUser user, .response response) :: (first ++ second) =
          before ++ (.createUser user, .response response) :: first ++ second := by simp
      refine ⟨?_, ?_⟩
      · exact (WritesFor.create (.of_reading hconflict.reading)).append
          (hreconciled.writesFor hfound).1
      · rw [hsplit]
        exact hreconciled.keeps hfound hmiddle

/-- A turn writes for its user only, to accounts that are the user's. -/
theorem Turn.writesFor
    (hturn : Turn settings listing filtered user session transcript outcome left)
    (hexact : listing.Exact) (hlisted : ∀ record ∈ listing.users, Received before record)
    (hlinked : externalIdOf user ≠ []) (hkeeps : Keeps listing before session.records) :
    WritesFor settings user before transcript ∧
      Keeps listing (before ++ transcript) left.records := by
  obtain ⟨found, hmatches, hmatched⟩ := exists_matches hexact hlinked
  have hfound := hmatched session.records hkeeps.aligned
  cases hturn with
  | unmatched => exact ⟨.nil, hkeeps.mono⟩
  | conflict => exact ⟨.nil, hkeeps.mono⟩
  | absent _ hrun =>
      rw [records_caught]
      exact hrun.writesFor hkeeps
  | @matched position recoveredByUsername _ _ _ hmatch hrun =>
      obtain rfl := Except.ok.inj (hfound.symm.trans hmatch)
      rw [records_caught]
      have hrecord : Reconcilable user (session.records.getD position [])
          recoveredByUsername before := by
        cases hmatches with
        | linked hrecord hexternalId _ =>
            have hsame := hkeeps.eq_of_linked hrecord (hexternalId ▸ hlinked)
            exact ⟨hkeeps.received hlisted hrecord, fun _ => hsame ▸ hexternalId, nofun⟩
        | named hrecord _ husername =>
            refine ⟨hkeeps.received hlisted hrecord, nofun, fun hunlinked _ => ?_⟩
            rw [hkeeps.eq_of_unlinked hrecord hunlinked]
            exact husername
      exact ⟨(hrun.writesFor hrecord).1, hrun.keeps hrecord hkeeps⟩

end Turns

/-! ## Disputed users -/

/-- The index holds the userName of the user under another account than the externalId, or
under one that is linked to someone else. -/
def Disputed (listing : Listing) (user : Dict) : Prop :=
  ∃ named, listing.usernameMatch (usernameOf user) = some named ∧
    ((∃ linked, listing.externalIdMatch (externalIdOf user) = some linked ∧
        named.get? "id" ≠ linked.get? "id") ∨
      externalIdOf named ≠ [] ∧ externalIdOf named ≠ externalIdOf user)

section Runs

variable {settings : Settings} {listing : Listing} {filtered : Bool} {user : Dict}
variable {session left : Session} {before transcript : Transcript}
variable {outcome : Except PyExc Unit}

/-- An account that is linked to someone else is not reconciled. -/
theorem Reconciled.eq_nil_of_foreign {position : ℕ}
    (hrun : Reconciled settings user position true session transcript outcome left)
    (hlinked : externalIdOf (session.records.getD position []) ≠ [])
    (hother : externalIdOf (session.records.getD position []) ≠ externalIdOf user) :
    transcript = [] := by
  cases hrun with
  | conflict => rfl
  | stopped => rfl
  | applied hsame => exact absurd (hsame rfl).2 hother
  | unrepaired _ hdue => exact absurd hdue.unlinked_record.1 hlinked
  | repaired _ hdue => exact absurd hdue.unlinked_record.1 hlinked
  | stoppedRepaired _ hdue => exact absurd hdue.unlinked_record.1 hlinked

/-- A turn for a disputed user sends nothing. -/
theorem Turn.eq_nil_of_disputed
    (hturn : Turn settings listing filtered user session transcript outcome left)
    (hexact : listing.Exact) (hlinked : externalIdOf user ≠ [])
    (hkeeps : Keeps listing before session.records) (hdisputed : Disputed listing user) :
    transcript = [] := by
  obtain ⟨found, hmatches, hmatched⟩ := exists_matches hexact hlinked
  have hfound := hmatched session.records hkeeps.aligned
  obtain ⟨named, hnamed, hwhy⟩ := hdisputed
  obtain ⟨hmem, husername⟩ := hexact.usernameMatch_eq_some_iff.mp hnamed
  cases hturn with
  | unmatched => rfl
  | conflict => rfl
  | absent hmatch =>
      obtain rfl := Except.ok.inj (hfound.symm.trans hmatch)
      cases hmatches with
      | absent _ hnone => exact absurd husername (hnone named hmem)
  | matched hmatch hrun =>
      obtain rfl := Except.ok.inj (hfound.symm.trans hmatch)
      cases hmatches with
      | @linked _ record hrecord hexternalId honly =>
          obtain rfl := honly named hmem husername
          obtain ⟨linked, hfoundLinked, hother⟩ | ⟨-, hother⟩ := hwhy
          · obtain ⟨hlinkedMem, hsame⟩ :=
              (hexact.externalIdMatch_eq_some_iff hlinked).mp hfoundLinked
            have heq := hexact.unambiguous.eq_of_externalId hmem hlinkedMem
              (hexternalId ▸ hlinked) (hexternalId.trans hsame.symm)
            exact absurd (by rw [heq]) hother
          · exact absurd hexternalId hother
      | @named _ record hrecord hnone hname =>
          obtain rfl := hexact.unambiguous.eq_of_username hmem (List.mem_of_getElem? hrecord)
            (husername.trans hname.symm)
          obtain ⟨linked, hfoundLinked, -⟩ | ⟨hforeign, hother⟩ := hwhy
          · obtain ⟨hlinkedMem, hsame⟩ :=
              (hexact.externalIdMatch_eq_some_iff hlinked).mp hfoundLinked
            exact absurd hsame (hnone linked hlinkedMem)
          · have hheld := hkeeps.eq_of_linked hrecord hforeign
            exact hrun.eq_nil_of_foreign (hheld ▸ hforeign) (hheld ▸ hother)

/-- A write on behalf of an undisputed source user, to an account that is the user's. -/
def Owned (settings : Settings) (scimUsers : List Dict) (listing : Listing)
    (before : Transcript) (exchange : Exchange Request Outcome) : Prop :=
  ∀ source, exchange.1.writer? = some source →
    source ∈ scimUsers ∧ ¬ Disputed listing source ∧
      ∀ userId, exchange.1.account? = some userId →
        Entitled settings before source userId exchange.1

theorem Turn.owned {users : List Dict}
    (hturn : Turn settings listing filtered user session transcript outcome left)
    (hexact : listing.Exact) (hlisted : ∀ record ∈ listing.users, Received before record)
    (huser : user ∈ users) (hlinked : externalIdOf user ≠ [])
    (hkeeps : Keeps listing before session.records) :
    Throughout (fun earlier exchange =>
      Owned settings users listing (before ++ earlier) exchange) transcript := by
  intro earlier exchange later heq source hsource
  obtain ⟨rfl, hentitled⟩ :=
    (hturn.writesFor hexact hlisted hlinked hkeeps).1 earlier exchange later heq source hsource
  refine ⟨huser, fun hdisputed => ?_, hentitled⟩
  rw [hturn.eq_nil_of_disputed hexact hlinked hkeeps hdisputed] at heq
  cases earlier <;> cases heq

/-- The turns keep to it one after another. -/
theorem Turns.owned {users turned : List Dict}
    (hturns : Turns settings listing filtered turned session transcript outcome left)
    (hexact : listing.Exact) (hlisted : ∀ record ∈ listing.users, Received before record)
    (husers : turned ⊆ users) (hlinked : ∀ user ∈ users, externalIdOf user ≠ [])
    (hkeeps : Keeps listing before session.records) :
    Throughout (fun earlier exchange =>
      Owned settings users listing (before ++ earlier) exchange) transcript := by
  induction hturns generalizing before with
  | done => exact Throughout.nil
  | aborted hturn =>
      obtain ⟨huser, -⟩ := List.cons_subset.mp husers
      exact hturn.owned hexact hlisted huser (hlinked _ huser) hkeeps
  | @next user _ _ _ _ first second _ hturn hturns ih =>
      obtain ⟨huser, hrest⟩ := List.cons_subset.mp husers
      refine Throughout.append
        (hturn.owned hexact hlisted huser (hlinked _ huser) hkeeps) ?_
      have hkept := (hturn.writesFor hexact hlisted (hlinked _ huser) hkeeps).2
      have hshown : ∀ record ∈ listing.users, Received (before ++ first) record :=
        fun record hrecord => (hlisted record hrecord).mono (List.subset_append_left _ _)
      refine Throughout.mono (ih hshown hrest hkept) fun earlier exchange howned => ?_
      rwa [List.append_assoc] at howned

theorem owned_of_reading {users : List Dict} (hreading : Reading transcript) :
    Throughout (Owned settings users listing) transcript := by
  refine Throughout.mono hreading fun earlier exchange hreads source hsource => ?_
  have hnotWrite := hreads.notWrite
  rw [Request.isWrite, hsource] at hnotWrite
  cases hnotWrite

/-- The turns after the listing that they go by. -/
theorem owned_of_turns {users : List Dict} (hlinked : ∀ user ∈ users, externalIdOf user ≠ [])
    (hreading : Reading before) (hlisted : ListedFor users before listing filtered)
    (hturns : Turns settings listing filtered users
      { session with records := listing.users } transcript outcome left) :
    Throughout (Owned settings users listing) (before ++ transcript) :=
  Throughout.append (owned_of_reading hreading)
    (hturns.owned hlisted.exact hlisted.received (List.Subset.refl users) hlinked .start)

/-- Every update of a run goes to an account that the source user owns, by an externalId
that Apple showed or by the repair that gives it, and users whose identity the listing
disputes are not written at all. -/
theorem writes_owned (settings : Settings) (scimUsers : List Dict)
    (hlinked : ∀ user ∈ scimUsers, externalIdOf user ≠ []) (answers : ℕ → Outcome) :
    let run := Script.converse answers (syncUsers settings scimUsers) {}
    Throughout (fun before exchange => ∀ source userId,
      exchange.1.writer? = some source → exchange.1.account? = some userId →
        source ∈ scimUsers ∧ Entitled settings before source userId exchange.1) run.1 ∧
    ∀ listing filtered,
      (Script.converse answers (existingUsers scimUsers) ({} : Session)).2.1 =
        .ok (listing, filtered) →
      ∀ user, Disputed listing user →
        ∀ exchange ∈ run.1, exchange.1.writer? ≠ some user := by
  intro run
  constructor
  · have hrun : SyncRun settings scimUsers {} run.1 run.2.1 run.2.2 :=
      runs_syncUsers (Script.runs_converse answers (syncUsers settings scimUsers) {})
    obtain ⟨listing, howned⟩ :
        ∃ listing, Throughout (Owned settings scimUsers listing) run.1 := by
      generalize run.1 = transcript at hrun ⊢
      generalize run.2.1 = outcome at hrun
      generalize run.2.2 = left at hrun
      cases hrun with
      | unlisted hreading => exact ⟨{}, owned_of_reading hreading⟩
      | unlinked hreading => exact ⟨{}, owned_of_reading hreading⟩
      | ran hreading hlisted _ hturns =>
          exact ⟨_, owned_of_turns hlinked hreading hlisted hturns⟩
    intro before exchange after heq source userId hsource huserId
    obtain ⟨hmem, -, hentitled⟩ := howned before exchange after heq source hsource
    exact ⟨hmem, hentitled userId huserId⟩
  · intro listing filtered hlisting user hdisputed exchange hexchange hsource
    obtain ⟨later, heq, hrest⟩ := Script.runs_converse_bind answers (existingUsers scimUsers)
      (fun listed => syncListed settings scimUsers listed.1 listed.2) ({} : Session) hlisting
    obtain ⟨hreading, -, hfound⟩ :=
      runs_existingUsers (Script.runs_converse answers (existingUsers scimUsers) ({} : Session))
    have howned : Throughout (Owned settings scimUsers listing) run.1 := by
      change Throughout _ (Script.converse answers (syncUsers settings scimUsers) {}).1
      rw [syncUsers]
      refine heq ▸ ?_
      obtain ⟨_, -, rfl, -⟩ | ⟨_, -, hturns, -⟩ := runs_syncListed hrest
      · rw [List.append_nil]
        exact owned_of_reading hreading
      · exact owned_of_turns hlinked hreading (hfound listing filtered hlisting) hturns
    obtain ⟨earlier, after, hsplit⟩ := List.append_of_mem hexchange
    exact (howned earlier exchange after hsplit user hsource).2.1 hdisputed

end Runs

end Ownership

/-! An unlinked account that is repaired. -/

section Sample

open SsfTransmitter.Python.Ascii

def unlinkedAccount : Dict :=
  [("id", .str "1"), ("userName", .str "Ada"), ("active", .bool true)]

def linkingUser : Dict :=
  [("externalId", .str "a"), ("userName", .str "ada")]

def linkingAnswers (position : ℕ) : Outcome :=
  [usersPage [unlinkedAccount] 1 1 1, .response ⟨204, .invalid, true⟩,
    .response ⟨200, .json (.dict (unlinkedAccount.set "externalId" (.str "a"))), true⟩].getD position
      .networkError

theorem writes_owned_sample :
    let run := Script.converse linkingAnswers
      (syncUsers ⟨.emailsOnly, true, true, false⟩ [linkingUser]) {}
    run.1.map Prod.fst =
        [.listUsers none, repairRequest linkingUser "1", .readUser "1"] ∧
      Throughout (fun before exchange => ∀ source userId,
        exchange.1.writer? = some source → exchange.1.account? = some userId →
          source ∈ [linkingUser] ∧
            Entitled ⟨.emailsOnly, true, true, false⟩ before source userId exchange.1) run.1 :=
  ⟨by decide +kernel,
    (writes_owned ⟨.emailsOnly, true, true, false⟩ [linkingUser] (by decide) linkingAnswers).1⟩

end Sample

end SsfTransmitter.Scim
