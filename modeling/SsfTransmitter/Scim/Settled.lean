import SsfTransmitter.Scim.Enactment
import SsfTransmitter.Scim.Updates

/-!
# What a plan leaves of an account

Once an account has been updated as planned, a comparison with the source user finds
nothing that the mode would act on, and finds out of scope what it found before.
-/

namespace SsfTransmitter.Scim

open SsfTransmitter.Core
open SsfTransmitter.Python

/-! ## Differences -/

section Differences

variable [PyRuntime]
variable {settings : Settings} {record user : Dict} {diffs : Diffs}

/-- The keys that a comparison goes through without the externalId. -/
def unlinkedOrder : List DiffKey :=
  [.userName, .givenName, .familyName, .active, .email]

/-- Differences between a record and a user.  The keys that are left out do not differ. -/
def Compares (record user : Dict) (diffs : Diffs) : Prop :=
  ∃ keys : List DiffKey,
    diffs = keys.map (fun key => (key, seen record key != seen user key)) ∧
      ∀ key, key ∉ keys → seen record key = seen user key

theorem nameOf_of_fieldDiffs {includeExternalId : Bool}
    (hdiffs : fieldDiffs record user includeExternalId = .ok diffs) :
    ∃ name name', nameOf record = .ok name ∧ nameOf user = .ok name' := by
  obtain ⟨name, hname, hdiffs⟩ := bind_eq_ok_iff.mp hdiffs
  obtain ⟨name', hname', -⟩ := bind_eq_ok_iff.mp hdiffs
  exact ⟨name, name', hname, hname'⟩

theorem compares_of_fieldDiffs (hdiffs : fieldDiffs record user true = .ok diffs) :
    Compares record user diffs := by
  obtain ⟨name, name', hname, hname'⟩ := nameOf_of_fieldDiffs hdiffs
  rw [fieldDiffs_eq hname hname'] at hdiffs
  refine ⟨diffOrder, (Except.ok.inj hdiffs).symm, fun key hkey => absurd ?_ hkey⟩
  cases key <;> decide

/-- After a repair the comparison leaves the externalId out. -/
theorem compares_of_fieldDiffs_linked (hlinked : externalIdOf record = externalIdOf user)
    (hdiffs : fieldDiffs record user false = .ok diffs) : Compares record user diffs := by
  obtain ⟨name, name', hname, hname'⟩ := nameOf_of_fieldDiffs hdiffs
  refine ⟨unlinkedOrder, ?_, fun key hkey => ?_⟩
  · rw [fieldDiffs, hname, hname'] at hdiffs
    obtain rfl := Except.ok.inj hdiffs
    simp only [unlinkedOrder, List.map_cons, List.map_nil, seen, text_bne, flag_bne,
      nameFields_of_nameOf hname, nameFields_of_nameOf hname']
  · cases key with
    | externalId => exact congrArg Seen.text hlinked
    | _ => exact absurd (by decide) hkey

omit [PyRuntime] in
theorem changed_map (keys : List DiffKey) (differs : DiffKey → Bool) (key : DiffKey) :
    Diffs.changed (keys.map fun key => (key, differs key)) key =
      (decide (key ∈ keys) && differs key) := by
  induction keys with
  | nil => rfl
  | cons other keys ih =>
      rw [List.map_cons, changed_cons, ih]
      by_cases hkey : key = other
      · simp [hkey]
      · simp [hkey]

theorem Compares.changed (hcompares : Compares record user diffs) (key : DiffKey) :
    diffs.changed key = (seen record key != seen user key) := by
  obtain ⟨keys, rfl, hothers⟩ := hcompares
  rw [changed_map keys fun key => seen record key != seen user key]
  by_cases hkey : key ∈ keys
  · simp [hkey]
  · simp [hkey, hothers key hkey]

theorem Compares.actsOn_iff (hcompares : Compares record user diffs) :
    actsOn settings diffs = true ↔
      ∃ key ∈ scope settings.appleScimUpdateMode, seen record key ≠ seen user key := by
  obtain ⟨keys, rfl, hothers⟩ := hcompares
  have hfiltered : actionableDiffs (keys.map fun key => (key, seen record key != seen user key))
      settings.appleScimUpdateMode =
        (keys.filter fun key => key ∈ scope settings.appleScimUpdateMode).map
          fun key => (key, seen record key != seen user key) := List.filter_map
  rw [actsOn, hfiltered]
  simp only [List.any_map, List.any_eq_true, List.mem_filter, decide_eq_true_eq,
    Function.comp_apply, bne_iff_ne]
  constructor
  · rintro ⟨key, ⟨-, hscope⟩, hdiffers⟩
    exact ⟨key, hscope, hdiffers⟩
  · rintro ⟨key, hscope, hdiffers⟩
    exact ⟨key, ⟨not_not.mp (mt (hothers key) hdiffers), hscope⟩, hdiffers⟩

theorem Compares.leavesOut_iff (hcompares : Compares record user diffs) :
    leavesOut settings diffs = true ↔
      ∃ key, key ∉ scope settings.appleScimUpdateMode ∧ seen record key ≠ seen user key := by
  obtain ⟨keys, rfl, hothers⟩ := hcompares
  have hfiltered : actionableDiffs (keys.map fun key => (key, seen record key != seen user key))
      settings.appleScimUpdateMode =
        (keys.filter fun key => key ∈ scope settings.appleScimUpdateMode).map
          fun key => (key, seen record key != seen user key) := List.filter_map
  have hkeys : ((keys.filter fun key => key ∈ scope settings.appleScimUpdateMode).map
      fun key => (key, seen record key != seen user key)).map Prod.fst =
        keys.filter fun key => key ∈ scope settings.appleScimUpdateMode := by
    rw [List.map_map]
    exact List.map_id _
  rw [leavesOut, hfiltered, hkeys]
  simp only [List.any_map, List.any_eq_true, Function.comp_apply, Bool.and_eq_true, bne_iff_ne,
    Bool.not_eq_true', List.contains_eq_mem, decide_eq_false_iff_not, List.mem_filter,
    decide_eq_true_eq]
  constructor
  · rintro ⟨key, hkey, hdiffers, hscope⟩
    exact ⟨key, fun hmem => hscope ⟨hkey, hmem⟩, hdiffers⟩
  · rintro ⟨key, hscope, hdiffers⟩
    exact ⟨key, not_not.mp (mt (hothers key) hdiffers), hdiffers, fun hmem => hscope hmem.2⟩

/-- What is counted out of scope depends on the keys that differ. -/
theorem skippedCounts_congr {record' : Dict} {diffs' : Diffs}
    (hcompares : Compares record user diffs) (hcompares' : Compares record' user diffs')
    (hsame : ∀ key, key ∉ scope settings.appleScimUpdateMode →
      seen record' key = seen record key) :
    skippedCounts settings diffs' = skippedCounts settings diffs := by
  have hiff : leavesOut settings diffs' = leavesOut settings diffs := by
    rw [Bool.eq_iff_iff, hcompares.leavesOut_iff, hcompares'.leavesOut_iff]
    refine exists_congr fun key => and_congr_right fun hscope => ?_
    rw [hsame key hscope]
  rw [skippedCounts, skippedCounts, hiff]

end Differences

/-! ## Updates -/

section Updating

variable [PyRuntime]
variable {settings : Settings} {sendable : Request → Bool} {record user : Dict}

omit [PyRuntime] in
theorem hasUsername_congr {other : Dict}
    (hsame : record.get? "userName" = other.get? "userName") :
    hasUsername record = hasUsername other := by
  rw [hasUsername, hasUsername, hsame]

theorem hasUsername_storeAt {name : Dict} (hname : nameOf record = .ok name)
    (hrecord : hasUsername record = true) (huser : hasUsername user = true) (key : DiffKey) :
    hasUsername (storeAt record (operationFor user key)) = true := by
  rw [storeAt_operationFor user hname]
  cases key with
  | userName =>
      refine (hasUsername_congr ?_).trans huser
      change (record.set "userName" (newValue user .userName)).get? "userName" = _
      rw [Dict.get?_set_self, newValue, Dict.getD]
      cases hget : user.get? "userName" with
      | none => rw [hasUsername, hget] at huser; cases huser
      | some value => rfl
  | _ =>
      exact (hasUsername_congr (Dict.get?_set_of_ne _ _ (by decide))).trans hrecord

theorem hasUsername_foldl_storeAt (keys : List DiffKey) {name : Dict}
    (hname : nameOf record = .ok name) (hrecord : hasUsername record = true)
    (huser : hasUsername user = true) :
    hasUsername ((keys.map (operationFor user)).foldl storeAt record) = true := by
  induction keys generalizing record name with
  | nil => exact hrecord
  | cons key keys ih =>
      obtain ⟨name', hname'⟩ := exists_nameOf_storeAt user hname key
      exact ih hname' (hasUsername_storeAt hname hrecord huser key)

/-- An account as an update for a user may leave it: the keys in the scope of the mode are
those of the user, the other ones those of the record. -/
structure Updated (settings : Settings) (record user account : Dict) : Prop where
  name : ∃ name, nameOf account = .ok name
  username : hasUsername record = true → hasUsername user = true → hasUsername account = true
  inScope : ∀ key ∈ scope settings.appleScimUpdateMode, seen account key = seen user key
  outOfScope : ∀ key, key ∉ scope settings.appleScimUpdateMode →
    seen account key = seen record key

theorem updated_patch {diffs : Diffs} {name : Dict} (hrecord : nameOf record = .ok name)
    (hcompares : Compares record user diffs) :
    Updated settings record user (((changedKeys settings.appleScimUpdateMode
      (actionableDiffs diffs settings.appleScimUpdateMode)).map (operationFor user)).foldl
        storeAt record) := by
  obtain ⟨hname, hseen⟩ := seen_foldl_storeAt user (changedKeys settings.appleScimUpdateMode
    (actionableDiffs diffs settings.appleScimUpdateMode)) hrecord
  refine ⟨hname, hasUsername_foldl_storeAt _ hrecord, fun key hscope => ?_,
    fun key hscope => ?_⟩
  · rw [hseen]
    split_ifs with hkey
    · rfl
    · simpa [mem_changedKeys, hscope, hcompares.changed] using hkey
  · rw [hseen, if_neg fun hkey => hscope (mem_changedKeys.mp hkey).1]

/-- A PUT stores all members but the externalId, which is the user's already. -/
theorem updated_put {name : Dict} {appleId : PyStr} (huser : nameOf user = .ok name)
    (hmode : settings.appleScimUpdateMode = .replaceAll)
    (hlinked : externalIdOf record = externalIdOf user) :
    Updated settings record user (replaced (Dict.set (user.filter fun field =>
      field.1 != ofString "externalId") "id" (.str appleId)) record) := by
  have hmember : ∀ key : PyStr, key ≠ ofString "id" → key ≠ ofString "externalId" →
      (replaced (Dict.set (user.filter fun field => field.1 != ofString "externalId") "id"
        (.str appleId)) record).get? key = user.get? key := by
    intro key hid hother
    rw [get?_replaced _ _ _ _ hid, if_neg hother]
  have hseen : ∀ key : DiffKey, seen (replaced (Dict.set (user.filter fun field =>
      field.1 != ofString "externalId") "id" (.str appleId)) record) key = seen user key := by
    intro key
    cases key with
    | externalId =>
        refine (seen_congr ?_).trans (congrArg Seen.text hlinked)
        exact (get?_replaced user record appleId (ofString "externalId") (by decide)).trans
          (if_pos rfl)
    | _ => exact seen_congr (hmember _ (by decide) (by decide))
  refine ⟨⟨name, ?_⟩, fun _ hnamed => ?_, fun key _ => hseen key, fun key hscope => ?_⟩
  · rw [← huser]
    exact nameOf_congr (hmember _ (by decide) (by decide))
  · exact (hasUsername_congr (hmember _ (by decide) (by decide))).trans hnamed
  · rw [hmode] at hscope
    exact absurd (by cases key <;> decide) hscope

/-- The request of an update makes of the record what the mode wants. -/
theorem updated_of_updateRequest {diffs : Diffs} {request : Request} {name name' : Dict}
    (hrecord : nameOf record = .ok name) (huser : nameOf user = .ok name')
    (hlinked : externalIdOf record = externalIdOf user)
    (hcompares : Compares record user diffs) (hacts : actsOn settings diffs = true)
    (hrequest : updateRequest settings record user
      (actionableDiffs diffs settings.appleScimUpdateMode) = .ok request) :
    Updated settings record user (request.rewrite record) := by
  obtain ⟨appleId, hid, hrequest⟩ := bind_eq_ok_iff.mp hrequest
  obtain ⟨update, hupdate, hrequest⟩ := bind_eq_ok_iff.mp hrequest
  obtain ⟨_, -, hrequest⟩ := bind_eq_ok_iff.mp hrequest
  obtain rfl := Except.ok.inj hrequest
  have hget := requireId_eq_ok_iff.mp hid
  by_cases hmode : settings.appleScimUpdateMode = .replaceAll
  · rw [buildUpdateRequest, if_pos hmode] at hupdate
    obtain rfl := Except.ok.inj hupdate
    dsimp only
    rw [Request.rewrite, if_pos hget]
    exact updated_put huser hmode hlinked
  · have hchanged : changedKeys settings.appleScimUpdateMode
        (actionableDiffs diffs settings.appleScimUpdateMode) ≠ [] := by
      obtain ⟨key, hscope, hdiffers⟩ := hcompares.actsOn_iff.mp hacts
      refine List.ne_nil_of_mem (mem_changedKeys.mpr ⟨hscope, ?_⟩)
      rw [hcompares.changed]
      exact bne_iff_ne.mpr hdiffers
    rw [buildUpdateRequest_patch huser hmode appleId hchanged] at hupdate
    obtain rfl := Except.ok.inj hupdate
    dsimp only
    rw [Request.rewrite, if_pos hget, patched_patchBody]
    exact updated_patch hrecord hcompares

/-- The differences that are left are out of scope, and they are those of before. -/
theorem Updated.exists_fieldDiffs {account : Dict} {diffs : Diffs} {name : Dict}
    (hupdated : Updated settings record user account) (huser : nameOf user = .ok name)
    (hcompares : Compares record user diffs) :
    ∃ diffs', fieldDiffs account user true = .ok diffs' ∧ actsOn settings diffs' = false ∧
      skippedCounts settings diffs' = skippedCounts settings diffs := by
  obtain ⟨name', hname'⟩ := hupdated.name
  have hdiffs := fieldDiffs_eq hname' huser
  have hcompares' := compares_of_fieldDiffs hdiffs
  refine ⟨_, hdiffs, ?_, skippedCounts_congr hcompares hcompares' hupdated.outOfScope⟩
  rw [← Bool.not_eq_true, hcompares'.actsOn_iff]
  rintro ⟨key, hscope, hdiffers⟩
  exact hdiffers (hupdated.inScope key hscope)

theorem Updated.username_eq {account : Dict} (hupdated : Updated settings record user account) :
    usernameOf account = usernameOf record ∨ usernameOf account = usernameOf user := by
  by_cases hscope : DiffKey.userName ∈ scope settings.appleScimUpdateMode
  · exact .inr (Seen.text.inj (hupdated.inScope .userName hscope))
  · exact .inl (Seen.text.inj (hupdated.outOfScope .userName hscope))

theorem Updated.externalId_eq {account : Dict} (hupdated : Updated settings record user account)
    (hlinked : externalIdOf record = externalIdOf user) :
    externalIdOf account = externalIdOf user := by
  by_cases hscope : DiffKey.externalId ∈ scope settings.appleScimUpdateMode
  · exact Seen.text.inj (hupdated.inScope .externalId hscope)
  · exact (Seen.text.inj (hupdated.outOfScope .externalId hscope)).trans hlinked

/-- What a record has become for a user, and what was counted on the way: the next comparison
has nothing to act on, and leaves out as much as was counted. -/
structure Resolved (settings : Settings) (record user account : Dict) (counts : SyncResult) :
    Prop where
  linked : externalIdOf account = externalIdOf user
  username : usernameOf account = usernameOf record ∨ usernameOf account = usernameOf user
  named : hasUsername record = true → hasUsername user = true → hasUsername account = true
  settled : ∃ diffs, fieldDiffs account user true = .ok diffs ∧
    actsOn settings diffs = false ∧
      counts.outOfScopeDiffs = (skippedCounts settings diffs).outOfScopeDiffs

theorem Updated.resolved {account : Dict} {counts : SyncResult} {diffs : Diffs} {name : Dict}
    (hupdated : Updated settings record user account) (huser : nameOf user = .ok name)
    (hlinked : externalIdOf record = externalIdOf user)
    (hcompares : Compares record user diffs)
    (hcounts : counts.outOfScopeDiffs = (skippedCounts settings diffs).outOfScopeDiffs) :
    Resolved settings record user account counts where
  linked := hupdated.externalId_eq hlinked
  username := hupdated.username_eq
  named := hupdated.username
  settled := by
    obtain ⟨diffs', hdiffs', hsettled, hskipped⟩ := hupdated.exists_fieldDiffs huser hcompares
    exact ⟨diffs', hdiffs', hsettled, by rw [hcounts, hskipped]⟩

theorem resolved_of_planUpdate {repaired : Bool} {diffs : Diffs} {plan : Plan}
    {name name' : Dict} (hrecord : nameOf record = .ok name) (huser : nameOf user = .ok name')
    (hlinked : externalIdOf record = externalIdOf user)
    (hcompares : Compares record user diffs)
    (hplan : planUpdate settings sendable record user repaired diffs = .ok plan) :
    Resolved settings record user (plan.revise record) plan.counts := by
  by_cases hacts : actsOn settings diffs = true
  · rw [planUpdate, if_pos hacts] at hplan
    obtain ⟨request, hintended, hplan⟩ := bind_eq_ok_iff.mp hplan
    obtain rfl := Except.ok.inj hplan
    obtain ⟨_, hrequest, hintended⟩ := bind_eq_ok_iff.mp hintended
    obtain ⟨_, -, hintended⟩ := bind_eq_ok_iff.mp hintended
    obtain ⟨_, -, hintended⟩ := bind_eq_ok_iff.mp hintended
    obtain rfl := Except.ok.inj hintended
    have hupdated := updated_of_updateRequest hrecord huser hlinked hcompares hacts hrequest
    exact hupdated.resolved huser hlinked hcompares rfl
  · rw [planUpdate, if_neg hacts] at hplan
    obtain ⟨_, -, hplan⟩ := bind_eq_ok_iff.mp hplan
    obtain rfl := Except.ok.inj hplan
    have hupdated : Updated settings record user record := by
      refine ⟨⟨name, hrecord⟩, fun hnamed _ => hnamed, fun key hscope => ?_, fun _ _ => rfl⟩
      by_contra hdiffers
      exact hacts (hcompares.actsOn_iff.mpr ⟨key, hscope, hdiffers⟩)
    refine hupdated.resolved huser hlinked hcompares ?_
    cases repaired <;> rfl

theorem externalIdOf_repaired (record user : Dict) :
    externalIdOf (record.set "externalId" (.str (externalIdOf user))) = externalIdOf user := by
  rw [externalIdOf, Dict.get?_set_self, trimmed_str, externalIdOf, trimmed, strip_strip]

/-- A repair links the account, and the update after it does the rest. -/
theorem resolved_of_planRepair {plan : Plan} {userId : PyStr}
    (hid : record.get? "id" = some (.str userId))
    (hplan : planRepair settings sendable record user = .ok plan) :
    Resolved settings record user (plan.revise record) plan.counts := by
  obtain ⟨userId', hintended, hplan⟩ := bind_eq_ok_iff.mp hplan
  obtain ⟨_, hfound, hintended⟩ := bind_eq_ok_iff.mp hintended
  obtain rfl := Except.ok.inj ((requireId_eq_ok_iff.mpr hid).symm.trans hfound)
  obtain ⟨_, -, hintended⟩ := bind_eq_ok_iff.mp hintended
  obtain ⟨_, -, hintended⟩ := bind_eq_ok_iff.mp hintended
  obtain ⟨_, -, hintended⟩ := bind_eq_ok_iff.mp hintended
  obtain rfl := Except.ok.inj hintended
  obtain ⟨diffs, hdiffs, hplan⟩ := bind_eq_ok_iff.mp hplan
  obtain ⟨later, hlater, hplan⟩ := bind_eq_ok_iff.mp hplan
  obtain rfl := Except.ok.inj hplan
  obtain ⟨name, name', hname, hname'⟩ := nameOf_of_fieldDiffs hdiffs
  have hrewrite : (repairRequest user userId).rewrite record =
      record.set "externalId" (.str (externalIdOf user)) := rewrite_repairRequest hid
  have hlinked : externalIdOf ((repairRequest user userId).rewrite record) =
      externalIdOf user := by
    rw [hrewrite]
    exact externalIdOf_repaired record user
  have hresolved := resolved_of_planUpdate hname hname' hlinked
    (compares_of_fieldDiffs_linked hlinked hdiffs) hlater
  have husername : ((repairRequest user userId).rewrite record).get? "userName" =
      record.get? "userName" := by
    rw [hrewrite]
    exact Dict.get?_set_of_ne _ _ (by decide)
  refine ⟨hresolved.linked, ?_, ?_, ?_⟩
  · have hsame : usernameOf ((repairRequest user userId).rewrite record) = usernameOf record :=
      congrArg normalizeIdentifier husername
    rw [← hsame]
    exact hresolved.username
  · rw [← hasUsername_congr husername]
    exact hresolved.named
  · obtain ⟨diffs', hdiffs', hsettled, hcounts⟩ := hresolved.settled
    exact ⟨diffs', hdiffs', hsettled, (Nat.zero_add _).trans hcounts⟩

theorem resolved_of_planAllowed {recoveredByUsername : Bool} {plan : Plan} {userId : PyStr}
    (hid : record.get? "id" = some (.str userId))
    (hmatched : MatchedBy recoveredByUsername record user)
    (hplan : planAllowed settings sendable record user recoveredByUsername = .ok plan) :
    Resolved settings record user (plan.revise record) plan.counts := by
  obtain ⟨diffs, hdiffs, hplan⟩ := bind_eq_ok_iff.mp hplan
  by_cases hrepair : (recoveredByUsername && diffs.changed .externalId) = true
  · rw [if_pos hrepair] at hplan
    exact resolved_of_planRepair hid hplan
  · rw [if_neg hrepair] at hplan
    have hlinked : externalIdOf record = externalIdOf user := by
      cases recoveredByUsername with
      | false => exact hmatched
      | true => simpa [changed_externalId_of_fieldDiffs hdiffs] using hrepair
    obtain ⟨name, name', hname, hname'⟩ := nameOf_of_fieldDiffs hdiffs
    exact resolved_of_planUpdate hname hname' hlinked (compares_of_fieldDiffs hdiffs) hplan

/-- A user as it was posted. -/
theorem resolved_of_posted {account : Dict} (hname : hasObjectName user = true)
    (hposted : Posted user account) :
    Resolved settings user user account (SyncResult.create 0) := by
  obtain ⟨userId, rfl⟩ := hposted
  have hmember : ∀ key : PyStr, key ≠ ofString "id" →
      (user.set "id" (.str userId)).get? key = user.get? key :=
    fun key hkey => Dict.get?_set_of_ne _ _ hkey
  obtain ⟨name, huser⟩ : ∃ name, nameOf user = .ok name := by
    rw [hasObjectName] at hname
    rw [nameOf]
    revert hname
    cases user.getD "name" (.dict []) with
    | dict fields => exact fun _ => ⟨fields, rfl⟩
    | _ => exact fun hname => Bool.noConfusion hname
  have hseen : ∀ key : DiffKey, seen (user.set "id" (.str userId)) key = seen user key := by
    intro key
    refine seen_congr (hmember _ ?_)
    cases key <;> decide
  have hupdated : Updated settings user user (user.set "id" (.str userId)) :=
    ⟨⟨name, (nameOf_congr (hmember _ (by decide))).trans huser⟩,
      fun hnamed _ => (hasUsername_congr (hmember _ (by decide))).trans hnamed,
      fun key _ => hseen key, fun key _ => hseen key⟩
  have hcompares := compares_of_fieldDiffs (fieldDiffs_eq huser huser)
  refine hupdated.resolved huser rfl hcompares ?_
  rw [skippedCounts, if_neg]
  · rfl
  · rw [hcompares.leavesOut_iff]
    rintro ⟨key, -, hdiffers⟩
    exact hdiffers rfl

end Updating

end SsfTransmitter.Scim
