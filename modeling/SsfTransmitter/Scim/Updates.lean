import SsfTransmitter.Python.Ascii
import SsfTransmitter.Scim.Server

/-!
# Updates resolve what they act on

An update request is built from the differences in the scope of the mode.  Where it
is applied, these differences are gone, and a PATCH leaves everything else as it was.
-/

namespace SsfTransmitter.Scim

open SsfTransmitter.Python

/-! ## What a comparison sees of a record -/

/-- A normalized value that a comparison reads. -/
inductive Seen where
  | text (value : PyStr)
  | flag (value : Bool)
  deriving DecidableEq

/-- `record.get("name", {})`, where it is a dictionary. -/
def nameFields (record : Dict) : Dict :=
  match nameOf record with
  | .ok name => name
  | .error _ => []

/-- The keys of `_field_diffs`, in its order. -/
def diffOrder : List DiffKey :=
  [.userName, .givenName, .familyName, .active, .email, .externalId]

/-- The member of a record that a key is read from. -/
def DiffKey.member : DiffKey → PyStr
  | .userName => "userName"
  | .givenName | .familyName => "name"
  | .active => "active"
  | .email => "emails"
  | .externalId => "externalId"

section Seeing

variable [PyRuntime]

/-- The value that a key is compared by. -/
def seen (record : Dict) : DiffKey → Seen
  | .userName => .text (usernameOf record)
  | .givenName => .text (trimmed ((nameFields record).get? "givenName"))
  | .familyName => .text (trimmed ((nameFields record).get? "familyName"))
  | .active => .flag (activeOf record)
  | .email => .text (normalizeEmail ((primaryEmail record).map .str))
  | .externalId => .text (externalIdOf record)

omit [PyRuntime] in
theorem nameFields_of_nameOf {record name : Dict} (hname : nameOf record = .ok name) :
    nameFields record = name := by
  rw [nameFields, hname]

omit [PyRuntime] in
theorem text_bne (left right : PyStr) : (Seen.text left != Seen.text right) = (left != right) := by
  rw [Bool.eq_iff_iff, bne_iff_ne, bne_iff_ne, ne_eq, Seen.text.injEq]

omit [PyRuntime] in
theorem flag_bne (left right : Bool) : (Seen.flag left != Seen.flag right) = (left != right) := by
  cases left <;> cases right <;> rfl

/-- `_field_diffs` compares what is seen of the two records. -/
theorem fieldDiffs_eq {existing new name name' : Dict} (hname : nameOf existing = .ok name)
    (hname' : nameOf new = .ok name') :
    fieldDiffs existing new true =
      .ok (diffOrder.map fun key => (key, seen existing key != seen new key)) := by
  simp only [diffOrder, List.map_cons, List.map_nil, seen, text_bne, flag_bne,
    nameFields_of_nameOf hname, nameFields_of_nameOf hname', fieldDiffs, hname, hname']
  rfl

omit [PyRuntime] in
theorem changed_map_diffOrder (differs : DiffKey → Bool) (key : DiffKey) :
    Diffs.changed (diffOrder.map fun key => (key, differs key)) key = differs key := by
  cases key <;> rfl

omit [PyRuntime] in
theorem nameOf_congr {record other : Dict} (hmember : record.get? "name" = other.get? "name") :
    nameOf record = nameOf other := by
  rw [nameOf, nameOf, Dict.getD, Dict.getD, hmember]

theorem seen_congr {record other : Dict} {key : DiffKey}
    (hmember : record.get? key.member = other.get? key.member) :
    seen record key = seen other key := by
  cases key with
  | userName => exact congrArg (fun value => Seen.text (normalizeIdentifier value)) hmember
  | givenName | familyName =>
      rw [seen, seen, nameFields, nameFields, nameOf_congr hmember]
  | active =>
      have hactive : activeOf record = activeOf other :=
        congrArg (fun value : Option Json => (value.getD (.bool true)).truthy) hmember
      rw [seen, seen, hactive]
  | email =>
      have hemails : record.getD "emails" (.list []) = other.getD "emails" (.list []) :=
        congrArg (fun value : Option Json => value.getD (.list [])) hmember
      rw [seen, seen, primaryEmail, primaryEmail, hemails]
  | externalId => exact congrArg (fun value => Seen.text (trimmed value)) hmember

/-! ## Storing one value -/

/-- The path of the operation for a key. -/
def DiffKey.path : DiffKey → PyStr
  | .givenName => "name." ++ nameSubfield .givenName
  | .familyName => "name." ++ nameSubfield .familyName
  | key => key.member

/-- The value of the operation for a key. -/
def newValue (user : Dict) : DiffKey → Json
  | .userName => user.getD "userName" .null
  | .givenName => (nameFields user).getD (nameSubfield .givenName) (.str [])
  | .familyName => (nameFields user).getD (nameSubfield .familyName) (.str [])
  | .active => user.getD "active" (.bool true)
  | .email => user.getD "emails" (.list [])
  | .externalId => .str (externalIdOf user)

/-- The operation for a key. -/
def operationFor (user : Dict) (key : DiffKey) : PyStr × Json :=
  (key.path, newValue user key)

/-- A key of a name is stored in the dictionary of the name. -/
def DiffKey.inName : DiffKey → Bool
  | .givenName | .familyName => true
  | _ => false

omit [PyRuntime] in
theorem get?_name_of_nameOf {record name : Dict} (hname : nameOf record = .ok name) :
    record.get? "name" = none ∧ name = [] ∨ record.get? "name" = some (.dict name) := by
  rw [nameOf, Dict.getD] at hname
  cases hget : record.get? "name" with
  | none =>
      rw [hget] at hname
      exact Or.inl ⟨rfl, (Except.ok.inj hname).symm⟩
  | some value =>
      rw [hget] at hname
      cases value with
      | dict fields =>
          obtain rfl := Except.ok.inj hname
          exact Or.inr rfl
      | _ => cases hname

omit [PyRuntime] in
theorem storeAt_subattribute {record fields : Dict} {path parent child : PyStr}
    (value : Json)
    (hdrop : path.dropWhile (· != ofChar '.') = ofChar '.' :: child)
    (htake : path.takeWhile (· != ofChar '.') = parent)
    (hfields : record.get? parent = none ∧ fields = [] ∨
      record.get? parent = some (.dict fields)) :
    storeAt record (path, value) =
      record.set parent (.dict (fields.set child value)) := by
  simp only [storeAt, hdrop, htake]
  rcases hfields with ⟨hnone, rfl⟩ | hsome
  · rw [hnone]
  · rw [hsome]

theorem storeAt_operationFor {record name : Dict} (user : Dict)
    (hname : nameOf record = .ok name) (key : DiffKey) :
    storeAt record (operationFor user key) =
      record.set key.member
        (if key.inName then .dict (name.set (nameSubfield key) (newValue user key))
          else newValue user key) := by
  have hfields := get?_name_of_nameOf hname
  cases key with
  | givenName | familyName => exact storeAt_subattribute _ (by decide) (by decide) hfields
  | userName | active | email | externalId => rfl

omit [PyRuntime] in
theorem nameOf_set_of_ne {record : Dict} {field : PyStr} (value : Json)
    (hmember : ofString "name" ≠ field) :
    nameOf (record.set field value) = nameOf record := by
  rw [nameOf, nameOf, Dict.getD, Dict.getD, Dict.get?_set_of_ne _ _ hmember]

omit [PyRuntime] in
theorem nameOf_set_name (record fields : Dict) :
    nameOf (record.set "name" (.dict fields)) = .ok fields := by
  rw [nameOf, Dict.getD, Dict.get?_set_self]
  rfl

/-- The record still has a dictionary for a name, or none. -/
theorem exists_nameOf_storeAt {record name : Dict} (user : Dict)
    (hname : nameOf record = .ok name) (key : DiffKey) :
    ∃ name', nameOf (storeAt record (operationFor user key)) = .ok name' := by
  rw [storeAt_operationFor user hname]
  cases key with
  | givenName | familyName => exact ⟨_, nameOf_set_name record _⟩
  | userName | active | email | externalId =>
      exact ⟨name, (nameOf_set_of_ne _ (by decide)).trans hname⟩

theorem trimmed_getD_str (name : Dict) (subfield : PyStr) :
    trimmed (some (name.getD subfield (.str []))) = trimmed (name.get? subfield) := by
  rw [Dict.getD]
  cases name.get? subfield <;> rfl

/-- Where the whole member is stored, a comparison sees it as in the source user. -/
theorem seen_set_newValue (record user : Dict) {key : DiffKey} (hkey : key.inName = false) :
    seen (record.set key.member (newValue user key)) key = seen user key := by
  have hstored : (record.set key.member (newValue user key)).get? key.member =
      some (newValue user key) := Dict.get?_set_self _ _ _
  cases key with
  | userName =>
      have hname : normalizeIdentifier (some (user.getD "userName" .null)) =
          normalizeIdentifier (user.get? "userName") := by
        rw [Dict.getD]
        cases user.get? "userName" <;> rfl
      exact congrArg Seen.text
        ((congrArg (fun value => normalizeIdentifier value) hstored).trans hname)
  | givenName | familyName => cases hkey
  | active =>
      have hactive : activeOf (record.set "active" (user.getD "active" (.bool true))) =
          activeOf user := by
        simp only [activeOf, Dict.getD, Dict.get?_set_self, Option.getD_some]
      exact congrArg Seen.flag hactive
  | email =>
      have hemails : (record.set "emails" (user.getD "emails" (.list []))).getD "emails"
          (.list []) = user.getD "emails" (.list []) := by
        simp only [Dict.getD, Dict.get?_set_self, Option.getD_some]
      change Seen.text (normalizeEmail ((primaryEmail (record.set "emails"
        (user.getD "emails" (.list [])))).map .str)) = _
      rw [seen, primaryEmail, primaryEmail, hemails]
  | externalId =>
      have hstrip : trimmed (some (.str (externalIdOf user))) = externalIdOf user := by
        rw [trimmed_str, externalIdOf, trimmed, strip_strip]
      exact congrArg Seen.text ((congrArg (fun value => trimmed value) hstored).trans hstrip)

omit [PyRuntime] in
theorem member_eq_iff (key other : DiffKey) :
    other.member = key.member ↔
      other = key ∨ (other.inName = true ∧ key.inName = true) := by
  cases key <;> cases other <;> decide +kernel

omit [PyRuntime] in
theorem nameSubfield_eq_iff {key other : DiffKey} (hkey : key.inName = true)
    (hother : other.inName = true) : nameSubfield other = nameSubfield key ↔ other = key := by
  revert hkey hother
  cases key <;> cases other <;> decide +kernel

theorem seen_of_inName (record : Dict) {key : DiffKey} (hkey : key.inName = true) :
    seen record key = .text (trimmed ((nameFields record).get? (nameSubfield key))) := by
  cases key with
  | givenName | familyName => rfl
  | userName | active | email | externalId => cases hkey

theorem newValue_of_inName (user : Dict) {key : DiffKey} (hkey : key.inName = true) :
    newValue user key = (nameFields user).getD (nameSubfield key) (.str []) := by
  cases key with
  | givenName | familyName => rfl
  | userName | active | email | externalId => cases hkey

/-- A member of the name is seen as in the source user, the other one as before. -/
theorem seen_set_name {record name : Dict} (user : Dict) (hname : nameOf record = .ok name)
    {key other : DiffKey} (hkey : key.inName = true) (hother : other.inName = true) :
    seen (record.set "name" (.dict (name.set (nameSubfield key) (newValue user key)))) other =
      if other = key then seen user other else seen record other := by
  have hfields := nameFields_of_nameOf
    (nameOf_set_name record (name.set (nameSubfield key) (newValue user key)))
  rw [seen_of_inName _ hother, hfields, Dict.get?_set]
  by_cases heq : other = key
  · subst heq
    rw [if_pos rfl, if_pos rfl, newValue_of_inName user hkey, trimmed_getD_str,
      seen_of_inName user hkey]
  · rw [if_neg (mt (nameSubfield_eq_iff hkey hother).mp heq), if_neg heq,
      seen_of_inName record hother, nameFields_of_nameOf hname]

omit [PyRuntime] in
theorem member_of_inName {key : DiffKey} (hkey : key.inName = true) :
    key.member = ofString "name" := by
  cases key with
  | givenName | familyName => rfl
  | userName | active | email | externalId => cases hkey

/-- A comparison sees the new value where it was stored and the old one elsewhere. -/
theorem seen_storeAt {record name : Dict} (user : Dict) (hname : nameOf record = .ok name)
    (key other : DiffKey) :
    seen (storeAt record (operationFor user key)) other =
      if other = key then seen user other else seen record other := by
  rw [storeAt_operationFor user hname]
  by_cases hmember : other.member = key.member
  · cases hkey : key.inName with
    | true =>
        have hother : other.inName = true := by
          rcases (member_eq_iff key other).mp hmember with rfl | hnames
          · exact hkey
          · exact hnames.1
        rw [if_pos rfl, member_of_inName hkey]
        exact seen_set_name user hname hkey hother
    | false =>
        obtain rfl : other = key :=
          ((member_eq_iff key other).mp hmember).resolve_right (by simp [hkey])
        rw [if_neg Bool.false_ne_true, if_pos rfl]
        exact seen_set_newValue record user hkey
  · have hother : other ≠ key := fun heq => hmember (congrArg _ heq)
    rw [if_neg hother]
    exact seen_congr (Dict.get?_set_of_ne _ _ hmember)

/-- What a comparison sees after the operations for some keys. -/
theorem seen_foldl_storeAt (user : Dict) (keys : List DiffKey) {record name : Dict}
    (hname : nameOf record = .ok name) :
    (∃ name', nameOf ((keys.map (operationFor user)).foldl storeAt record) = .ok name') ∧
      ∀ other, seen ((keys.map (operationFor user)).foldl storeAt record) other =
        if other ∈ keys then seen user other else seen record other := by
  induction keys generalizing record name with
  | nil => exact ⟨⟨name, hname⟩, fun other => by simp⟩
  | cons key keys ih =>
      obtain ⟨name', hname'⟩ := exists_nameOf_storeAt user hname key
      obtain ⟨hfinal, hseen⟩ := ih hname'
      refine ⟨hfinal, fun other => ?_⟩
      rw [List.map_cons, List.foldl_cons, hseen, seen_storeAt user hname]
      by_cases hkeys : other ∈ keys
      · simp [hkeys]
      · by_cases hkey : other = key <;> simp [hkeys, hkey]

/-! ## Requests -/

/-- The keys that a mode acts on. -/
def scope (mode : UpdateMode) : List DiffKey :=
  (updateFieldsForMode mode).flatMap ScimField.diffKeys

omit [PyRuntime] in
theorem nodup_scope (mode : UpdateMode) : (scope mode).Nodup := by
  cases mode <;> decide

omit [PyRuntime] in
theorem changed_cons (key other : DiffKey) (value : Bool) (diffs : Diffs) :
    Diffs.changed ((other, value) :: diffs) key =
      if key = other then value else diffs.changed key := by
  rw [Diffs.changed, List.lookup_cons]
  by_cases hkey : key = other
  · simp [hkey]
  · simp [hkey, Diffs.changed, beq_eq_false_iff_ne.mpr hkey]

omit [PyRuntime] in
/-- `_actionable_diffs` keeps the differences in the scope of the mode. -/
theorem changed_actionableDiffs (diffs : Diffs) (mode : UpdateMode) (key : DiffKey) :
    (actionableDiffs diffs mode).changed key =
      (decide (key ∈ scope mode) && diffs.changed key) := by
  change Diffs.changed (diffs.filter fun diff => diff.1 ∈ scope mode) key = _
  induction diffs with
  | nil => simp [Diffs.changed]
  | cons diff diffs ih =>
      obtain ⟨other, value⟩ := diff
      rw [changed_cons]
      by_cases hother : other ∈ scope mode
      · rw [List.filter_cons_of_pos (by simpa using hother), changed_cons, ih]
        by_cases hkey : key = other
        · simp [hkey, hother]
        · simp [hkey]
      · rw [List.filter_cons_of_neg (by simpa using hother), ih]
        by_cases hkey : key = other
        · simp [hkey, hother]
        · simp [hkey]

omit [PyRuntime] in
theorem mapM_eq_ok_map {Item Result : Type} {body : Item → Except PyExc Result}
    {image : Item → Result} {items : List Item}
    (hbody : ∀ item ∈ items, body item = .ok (image item)) :
    items.mapM body = .ok (items.map image) := by
  induction items with
  | nil => rfl
  | cons item items ih =>
      rw [List.mapM_cons, hbody item List.mem_cons_self,
        ih fun other hother => hbody other (List.mem_cons_of_mem _ hother)]
      rfl

/-- One field of an update needs the operations of its changed keys. -/
theorem fieldOperations_eq {user name : Dict} (hname : nameOf user = .ok name)
    {diffs : Diffs} {field : ScimField} (hfield : field.diffKeys.any diffs.changed = true) :
    fieldOperations user diffs field =
      .ok ((field.diffKeys.filter diffs.changed).map (operationFor user)) := by
  have hsingle : ∀ key : DiffKey, [key].any diffs.changed = true →
      [key].filter diffs.changed = [key] := by
    intro key hkey
    simpa using hkey
  cases field with
  | name =>
      rw [fieldOperations, changedNameOperations]
      refine mapM_eq_ok_map fun key hkey => ?_
      rw [hname]
      have hkeys := List.mem_of_mem_filter hkey
      simp only [ScimField.diffKeys, List.mem_cons, List.not_mem_nil, or_false] at hkeys
      rcases hkeys with rfl | rfl
      · rw [operationFor, newValue, nameFields_of_nameOf hname]
        rfl
      · rw [operationFor, newValue, nameFields_of_nameOf hname]
        rfl
  | externalId | userName | emails | active =>
      rw [ScimField.diffKeys] at hfield ⊢
      rw [hsingle _ hfield]
      rfl

/-- The operations of all fields are those of the changed keys in scope. -/
theorem flatten_map_filter_fields (user : Dict) (diffs : Diffs) (fields : List ScimField) :
    ((fields.filter fun field => field.diffKeys.any diffs.changed).map fun field =>
      (field.diffKeys.filter diffs.changed).map (operationFor user)).flatten =
      ((fields.flatMap ScimField.diffKeys).filter diffs.changed).map (operationFor user) := by
  induction fields with
  | nil => rfl
  | cons field fields ih =>
      rw [List.flatMap_cons, List.filter_append, List.map_append, ← ih]
      by_cases hfield : field.diffKeys.any diffs.changed = true
      · simp [hfield]
      · have hnone : field.diffKeys.filter diffs.changed = [] := by
          simpa [List.filter_eq_nil_iff] using hfield
        simp [hfield, hnone]

/-- The keys with a difference in the scope of the mode, in the order of the fields. -/
def changedKeys (mode : UpdateMode) (diffs : Diffs) : List DiffKey :=
  (scope mode).filter diffs.changed

omit [PyRuntime] in
/-- Some field is updated where some key in the scope differs. -/
theorem filter_fields_eq_nil_iff (mode : UpdateMode) (diffs : Diffs) :
    ((updateFieldsForMode mode).filter fun field => field.diffKeys.any diffs.changed) = [] ↔
      changedKeys mode diffs = [] := by
  simp only [changedKeys, scope, List.filter_eq_nil_iff, List.mem_flatMap, List.any_eq_true]
  constructor
  · rintro hnone key ⟨field, hfield, hkey⟩ hchanged
    exact hnone field hfield ⟨key, hkey, hchanged⟩
  · rintro hnone field hfield ⟨key, hkey, hchanged⟩
    exact hnone key ⟨field, hfield, hkey⟩ hchanged

/-- The request of a PATCH mode. -/
theorem buildUpdateRequest_patch {user name : Dict} (hname : nameOf user = .ok name)
    {mode : UpdateMode} (hmode : mode ≠ .replaceAll) (appleId : PyStr) {diffs : Diffs}
    (hchanged : changedKeys mode diffs ≠ []) :
    buildUpdateRequest user mode appleId diffs =
      .ok ⟨.patch, patchBody (((changedKeys mode diffs).map (operationFor user)).map
        fun operation => replaceOperation operation.1 operation.2),
        (changedKeys mode diffs).map DiffKey.path⟩ := by
  have hfields : ((updateFieldsForMode mode).filter fun field =>
      field.diffKeys.any diffs.changed) ≠ [] :=
    fun hnone => hchanged ((filter_fields_eq_nil_iff mode diffs).mp hnone)
  have hoperations : ((updateFieldsForMode mode).filter fun field =>
      field.diffKeys.any diffs.changed).mapM (fieldOperations user diffs) =
        .ok (((updateFieldsForMode mode).filter fun field =>
          field.diffKeys.any diffs.changed).map fun field =>
            (field.diffKeys.filter diffs.changed).map (operationFor user)) :=
    mapM_eq_ok_map fun field hfield =>
      fieldOperations_eq hname (List.mem_filter.mp hfield).2
  simp only [buildUpdateRequest, if_neg hmode, ensure, if_pos hfields, hoperations, bind,
    Except.bind, pure, Except.pure, flatten_map_filter_fields, List.map_map]
  rfl

omit [PyRuntime] in
theorem get?_filter_ne (fields : Dict) (dropped key : PyStr) :
    Dict.get? (fields.filter fun field => field.1 != dropped) key =
      if key = dropped then none else fields.get? key := by
  induction fields with
  | nil => simp
  | cons field fields ih =>
      obtain ⟨other, value⟩ := field
      rw [Dict.get?_cons]
      by_cases hother : other = dropped
      · rw [List.filter_cons_of_neg (by simp [hother]), ih]
        by_cases hkey : key = dropped <;> simp [hkey, hother]
      · rw [List.filter_cons_of_pos (by simpa using hother), Dict.get?_cons, ih]
        by_cases hkey : key = other
        · simp [hkey, hother]
        · simp [hkey]

omit [PyRuntime] in
/-- What a PUT body leaves in the members of an account. -/
theorem get?_replaced (user record : Dict) (appleId : PyStr) (key : PyStr)
    (hid : key ≠ ofString "id") :
    (replaced (Dict.set (user.filter fun field => field.1 != ofString "externalId") "id"
      (.str appleId)) record).get? key =
      if key = ofString "externalId" then record.get? key else user.get? key := by
  have hbody : (Dict.set (user.filter fun field => field.1 != ofString "externalId") "id"
      (.str appleId)).get? key =
        if key = ofString "externalId" then none else user.get? key := by
    rw [Dict.get?_set_of_ne _ _ hid, get?_filter_ne]
  rw [replaced]
  cases hrecord : record.get? "externalId" with
  | none =>
      rw [hbody]
      by_cases hkey : key = ofString "externalId"
      · rw [if_pos hkey, if_pos hkey, hkey, hrecord]
      · rw [if_neg hkey, if_neg hkey]
  | some externalId =>
      by_cases hkey : key = ofString "externalId"
      · rw [if_pos hkey, hkey, hrecord, Dict.get?_set_self]
      · rw [if_neg hkey, Dict.get?_set_of_ne _ _ hkey, hbody, if_neg hkey]

/-- A request as a server that follows it applies it to an account: a Replace sets the
path, a PUT stores the body with the externalId of the account. -/
def UpdateRequest.apply (request : UpdateRequest) (account : Dict) : Dict :=
  match request.method with
  | .patch => patched request.body account
  | .put => replaced request.body account

/-- A PATCH whose operations are one Replace for each of the keys. -/
def ReplacesExactly (user : Dict) (differs : DiffKey → Bool) (request : UpdateRequest) :
    Prop :=
  request.method = .patch ∧ ∃ keys : List DiffKey, keys.Nodup ∧
    (∀ key, key ∈ keys ↔ differs key = true) ∧
    request.body.get? "Operations" = some (.list (keys.map fun key =>
      replaceOperation key.path (newValue user key)))

/-- What holds of the request for the differences of two records. -/
structure Resolves (record user : Dict) (mode : UpdateMode) (before : Diffs)
    (request : UpdateRequest) : Prop where
  operations : mode ≠ .replaceAll →
    ReplacesExactly user (actionableDiffs before mode).changed request
  applied : ∃ after, fieldDiffs (request.apply record) user true = .ok after ∧
    (∀ key ∈ scope mode, after.changed key = false) ∧
    (mode ≠ .replaceAll → ∀ key, key ∉ scope mode → after.changed key = before.changed key)

omit [PyRuntime] in
theorem mem_changedKeys {mode : UpdateMode} {diffs : Diffs} {key : DiffKey} :
    key ∈ changedKeys mode (actionableDiffs diffs mode) ↔
      key ∈ scope mode ∧ diffs.changed key = true := by
  rw [changedKeys, List.mem_filter, changed_actionableDiffs]
  simp

variable {record user name name' : Dict} {mode : UpdateMode} {appleId : PyStr}

/-- A PATCH resolves the differences in scope and keeps the others. -/
theorem resolves_patch (hrecord : nameOf record = .ok name) (huser : nameOf user = .ok name')
    (hmode : mode ≠ .replaceAll) {before : Diffs}
    (hbefore : ∀ key, before.changed key = (seen record key != seen user key))
    (hsome : ∃ key, (actionableDiffs before mode).changed key = true) :
    ∃ request, buildUpdateRequest user mode appleId (actionableDiffs before mode) =
      .ok request ∧ Resolves record user mode before request := by
  have hchanged : changedKeys mode (actionableDiffs before mode) ≠ [] := by
    obtain ⟨key, hkey⟩ := hsome
    rw [changed_actionableDiffs, Bool.and_eq_true, decide_eq_true_eq] at hkey
    exact List.ne_nil_of_mem (mem_changedKeys.mpr hkey)
  refine ⟨_, buildUpdateRequest_patch huser hmode appleId hchanged, ?_, ?_⟩
  · intro _
    refine ⟨rfl, changedKeys mode (actionableDiffs before mode), (nodup_scope mode).filter _,
      fun key => ?_, ?_⟩
    · rw [mem_changedKeys, changed_actionableDiffs]
      simp
    · rw [List.map_map]
      rfl
  · obtain ⟨⟨name'', hname⟩, hseen⟩ := seen_foldl_storeAt user
      (changedKeys mode (actionableDiffs before mode)) hrecord
    have hafter : UpdateRequest.apply ⟨.patch, patchBody (((changedKeys mode
        (actionableDiffs before mode)).map (operationFor user)).map fun operation =>
          replaceOperation operation.1 operation.2),
        (changedKeys mode (actionableDiffs before mode)).map DiffKey.path⟩ record =
          ((changedKeys mode (actionableDiffs before mode)).map (operationFor user)).foldl
            storeAt record := patched_patchBody _ _
    rw [← hafter] at hname hseen
    refine ⟨_, fieldDiffs_eq hname huser, ?_⟩
    constructor
    · intro key hscope
      rw [changed_map_diffOrder, hseen]
      split_ifs with hkey
      · exact bne_self_eq_false _
      · rw [← hbefore]
        simpa [mem_changedKeys, hscope] using hkey
    · intro _ key hscope
      rw [changed_map_diffOrder, hseen, if_neg (by simp [mem_changedKeys, hscope]), hbefore]

/-- A PUT resolves all differences but that of the externalId. -/
theorem resolves_put (huser : nameOf user = .ok name') {before : Diffs}
    (hbefore : ∀ key, before.changed key = (seen record key != seen user key))
    (hexternalId : before.changed .externalId = false) :
    ∃ request, buildUpdateRequest user .replaceAll appleId
        (actionableDiffs before .replaceAll) = .ok request ∧
      Resolves record user .replaceAll before request := by
  have hmember : ∀ key : DiffKey, key ≠ .externalId →
      (replaced (Dict.set (user.filter fun field => field.1 != ofString "externalId") "id"
        (.str appleId)) record).get? key.member = user.get? key.member := by
    intro key hkey
    have hid : key.member ≠ ofString "id" := by cases key <;> decide +kernel
    have hother : key.member ≠ ofString "externalId" := by
      revert hkey
      cases key <;> decide +kernel
    rw [get?_replaced _ _ _ _ hid, if_neg hother]
  have hname : nameOf (replaced (Dict.set (user.filter fun field =>
      field.1 != ofString "externalId") "id" (.str appleId)) record) = .ok name' := by
    rw [← huser]
    exact nameOf_congr (hmember .givenName (by decide))
  refine ⟨_, rfl, fun hmode => absurd rfl hmode, _, fieldDiffs_eq hname huser, ?_,
    fun hmode => absurd rfl hmode⟩
  intro key _
  rw [changed_map_diffOrder]
  by_cases hkey : key = .externalId
  · have hkept := get?_replaced user record appleId (ofString "externalId") (by decide +kernel)
    rw [if_pos rfl] at hkept
    subst hkey
    exact (congrArg (· != seen user .externalId) (seen_congr hkept)).trans
      ((hbefore .externalId).symm.trans hexternalId)
  · exact (congrArg (· != seen user key) (seen_congr (hmember key hkey))).trans
      (bne_self_eq_false _)

/-- The request for the differences in the scope of a mode never raises, has one operation
for each of them, and resolves them.  Every source user has a dictionary for a name
(`nameOf_scimUser`). -/
theorem updates_resolve (hrecord : nameOf record = .ok name) (huser : nameOf user = .ok name')
    (mode : UpdateMode) (appleId : PyStr) :
    ∃ before, fieldDiffs record user true = .ok before ∧
      ((∃ key, (actionableDiffs before mode).changed key = true) →
        (mode = .replaceAll → before.changed .externalId = false) →
        ∃ request, buildUpdateRequest user mode appleId (actionableDiffs before mode) =
          .ok request ∧ Resolves record user mode before request) := by
  refine ⟨_, fieldDiffs_eq hrecord huser, fun hsome hexternalId => ?_⟩
  by_cases hmode : mode = .replaceAll
  · subst hmode
    exact resolves_put huser (changed_map_diffOrder _) (hexternalId rfl)
  · exact resolves_patch hrecord huser hmode (changed_map_diffOrder _) hsome

end Seeing

/-! ## Source users -/

/-- The dictionary that `_map_to_scim` returns, for any values of its fields. -/
def scimUser (externalId userName givenName familyName fullName email : PyStr)
    (active : Json) : Dict :=
  [("schemas", .list [.str "urn:ietf:params:scim:schemas:core:2.0:User"]),
    ("externalId", .str externalId),
    ("userName", .str userName),
    ("name", .dict [("givenName", .str givenName), ("familyName", .str familyName),
      ("formatted", .str fullName)]),
    ("emails", .list [.dict [("value", .str email), ("primary", .bool true),
      ("type", .str "work")]]),
    ("active", active)]

theorem nameOf_scimUser (externalId userName givenName familyName fullName email : PyStr)
    (active : Json) :
    ∃ name, nameOf (scimUser externalId userName givenName familyName fullName email active) =
      .ok name :=
  ⟨_, rfl⟩

/-- An account as the server lists it, without a name and without an address. -/
def namelessAccount : Dict :=
  [("id", .str "apple-1"), ("userName", .str "ada@example.com"), ("externalId", .str "7")]

def lovelaceSource : Dict :=
  scimUser "7" "ada@example.com" "Ada" "Lovelace" "Ada Lovelace" "ada@example.com" (.bool true)

open scoped SsfTransmitter.Python.Ascii in
theorem updates_resolve_sample :
    ∃ before request, fieldDiffs namelessAccount lovelaceSource true = .ok before ∧
      buildUpdateRequest lovelaceSource .patchAll "apple-1" (actionableDiffs before .patchAll) =
        .ok request ∧
      Resolves namelessAccount lovelaceSource .patchAll before request := by
  obtain ⟨before, hbefore, hresolves⟩ :=
    @updates_resolve _ namelessAccount lovelaceSource _ _ rfl rfl .patchAll "apple-1"
  have hdiffs : fieldDiffs namelessAccount lovelaceSource true =
      .ok [(.userName, false), (.givenName, true), (.familyName, true), (.active, false),
        (.email, true), (.externalId, false)] := by
    decide +kernel
  obtain rfl := Except.ok.inj (hbefore.symm.trans hdiffs)
  obtain ⟨request, hrequest, hresolved⟩ := hresolves ⟨.email, by decide⟩ nofun
  exact ⟨_, request, hbefore, hrequest, hresolved⟩

end SsfTransmitter.Scim
