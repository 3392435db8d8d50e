import SsfTransmitter.Python.Text

/-!
# JSON values

What `json.loads` builds: `None`, booleans, integers, floats, strings, lists
and dictionaries.  A float is held by its `repr`, which determines it; the code
never computes with one.  A dictionary is the association list of its items in
insertion order.
-/

namespace SsfTransmitter.Python

inductive Json where
  | null
  | bool (value : Bool)
  | int (value : ℤ)
  | float (text : PyStr)
  | str (value : PyStr)
  | list (items : List Json)
  | dict (fields : List (PyStr × Json))

abbrev Dict := List (PyStr × Json)

namespace Json

mutual

/-- Equality of JSON values is decided structurally. -/
def decEq : (left right : Json) → Decidable (left = right)
  | .null, right => match right with
    | .null => isTrue rfl
    | .bool _ | .int _ | .float _ | .str _ | .list _ | .dict _ =>
      isFalse (by simp)
  | .bool left, right => match right with
    | .bool right => decidable_of_iff (left = right) (by simp)
    | .null | .int _ | .float _ | .str _ | .list _ | .dict _ =>
      isFalse (by simp)
  | .int left, right => match right with
    | .int right => decidable_of_iff (left = right) (by simp)
    | .null | .bool _ | .float _ | .str _ | .list _ | .dict _ =>
      isFalse (by simp)
  | .float left, right => match right with
    | .float right => decidable_of_iff (left = right) (by simp)
    | .null | .bool _ | .int _ | .str _ | .list _ | .dict _ =>
      isFalse (by simp)
  | .str left, right => match right with
    | .str right => decidable_of_iff (left = right) (by simp)
    | .null | .bool _ | .int _ | .float _ | .list _ | .dict _ =>
      isFalse (by simp)
  | .list left, right => match right with
    | .list right => match decEqItems left right with
      | isTrue heq => isTrue (by rw [heq])
      | isFalse hne => isFalse (by simpa using hne)
    | .null | .bool _ | .int _ | .float _ | .str _ | .dict _ =>
      isFalse (by simp)
  | .dict left, right => match right with
    | .dict right => match decEqFields left right with
      | isTrue heq => isTrue (by rw [heq])
      | isFalse hne => isFalse (by simpa using hne)
    | .null | .bool _ | .int _ | .float _ | .str _ | .list _ =>
      isFalse (by simp)

def decEqItems : (left right : List Json) → Decidable (left = right)
  | [], [] => isTrue rfl
  | [], _ :: _ => isFalse (by simp)
  | _ :: _, [] => isFalse (by simp)
  | left :: lefts, right :: rights =>
    match decEq left right, decEqItems lefts rights with
    | isTrue hhead, isTrue htail => isTrue (by rw [hhead, htail])
    | isFalse hhead, _ => isFalse fun heq => hhead (List.cons.inj heq).1
    | _, isFalse htail => isFalse fun heq => htail (List.cons.inj heq).2

def decEqField : (left right : PyStr × Json) → Decidable (left = right)
  | (leftKey, left), (rightKey, right) =>
    match inferInstanceAs (Decidable (leftKey = rightKey)), decEq left right with
    | isTrue hkey, isTrue hvalue => isTrue (by rw [hkey, hvalue])
    | isFalse hkey, _ => isFalse fun heq => hkey (Prod.mk.inj heq).1
    | _, isFalse hvalue => isFalse fun heq => hvalue (Prod.mk.inj heq).2

def decEqFields : (left right : List (PyStr × Json)) → Decidable (left = right)
  | [], [] => isTrue rfl
  | [], _ :: _ => isFalse (by simp)
  | _ :: _, [] => isFalse (by simp)
  | left :: lefts, right :: rights =>
    match decEqField left right, decEqFields lefts rights with
    | isTrue hhead, isTrue htail => isTrue (by rw [hhead, htail])
    | isFalse hhead, _ => isFalse fun heq => hhead (List.cons.inj heq).1
    | _, isFalse htail => isFalse fun heq => htail (List.cons.inj heq).2

end

instance : DecidableEq Json := decEq

/-- `bool(value)`. -/
def truthy : Json → Bool
  | .null => false
  | .bool value => value
  | .int value => value != 0
  | .float text => text != ofString "0.0" && text != ofString "-0.0"
  | .str value => !value.isEmpty
  | .list items => !items.isEmpty
  | .dict fields => !fields.isEmpty

mutual

/-- `json.dumps(value, ensure_ascii=False).encode("utf-8")` succeeds. -/
def encodable : Json → Bool
  | .str value => Python.encodable value
  | .list items => encodableItems items
  | .dict fields => encodableFields fields
  | _ => true

def encodableItems : List Json → Bool
  | [] => true
  | item :: items => encodable item && encodableItems items

def encodableFields : List (PyStr × Json) → Bool
  | [] => true
  | (key, value) :: fields =>
    Python.encodable key && encodable value && encodableFields fields

end

/-- Hexadecimal digits of a code point, padded to `width`. -/
def hexDigits (width value : ℕ) : PyStr :=
  let digits := (Nat.toDigits 16 value).map ofChar
  List.replicate (width - digits.length) (ofChar '0') ++ digits

/-- One code point of `repr(text)` inside quotes `quote`. -/
def reprPoint [runtime : PyRuntime] (quote point : CodePoint) : PyStr :=
  if point = quote ∨ point = ofChar '\\' then [ofChar '\\', point]
  else if point = ofChar '\t' then "\\t"
  else if point = ofChar '\n' then "\\n"
  else if point = ofChar '\r' then "\\r"
  else if point.val < 32 ∨ point.val = 127 then "\\x" ++ hexDigits 2 point.val
  else if point.val < 127 ∨ runtime.isPrintable point then [point]
  else if point.val ≤ 0xFF then "\\x" ++ hexDigits 2 point.val
  else if point.val ≤ 0xFFFF then "\\u" ++ hexDigits 4 point.val
  else "\\U" ++ hexDigits 8 point.val

/-- `repr(text)`: single quotes unless only single quotes occur. -/
def reprStr [PyRuntime] (text : PyStr) : PyStr :=
  let single := ofChar '\''
  let double := ofChar '"'
  let quote := if single ∈ text ∧ double ∉ text then double else single
  [quote] ++ text.flatMap (reprPoint quote) ++ [quote]

mutual

/-- `repr(value)`. -/
def repr [PyRuntime] : Json → PyStr
  | .null => "None"
  | .bool true => "True"
  | .bool false => "False"
  | .int value => ofString (toString value)
  | .float text => text
  | .str value => reprStr value
  | .list items => "[" ++ reprItems items ++ "]"
  | .dict fields => "\x7b" ++ reprFields fields ++ "\x7d"

def reprItems [PyRuntime] : List Json → PyStr
  | [] => []
  | [item] => repr item
  | item :: items => repr item ++ ", " ++ reprItems items

def reprField [PyRuntime] : PyStr × Json → PyStr
  | (key, value) => reprStr key ++ ": " ++ repr value

def reprFields [PyRuntime] : List (PyStr × Json) → PyStr
  | [] => []
  | [field] => reprField field
  | field :: fields => reprField field ++ ", " ++ reprFields fields

end

/-- `str(value)`. -/
def pyStr [PyRuntime] : Json → PyStr
  | .str value => value
  | value => repr value

@[simp]
theorem pyStr_str [PyRuntime] (value : PyStr) : pyStr (.str value) = value := rfl

end Json

namespace Dict

/-- `fields.get(key)`, without a default. -/
def get? (fields : Dict) (key : PyStr) : Option Json :=
  fields.lookup key

/-- `fields.get(key, default)`. -/
def getD (fields : Dict) (key : PyStr) (default : Json) : Json :=
  (fields.get? key).getD default

/-- `fields[key] = value`. -/
def set (fields : Dict) (key : PyStr) (value : Json) : Dict :=
  if key ∈ fields.map Prod.fst then
    fields.map fun field => if field.1 = key then (key, value) else field
  else fields ++ [(key, value)]

/-- Distinct keys, as in every Python dictionary. -/
def WellFormed (fields : Dict) : Prop :=
  (fields.map Prod.fst).Nodup

@[simp]
theorem get?_nil (key : PyStr) : get? [] key = none := rfl

theorem get?_cons (fields : Dict) (key other : PyStr) (value : Json) :
    get? ((other, value) :: fields) key =
      if key = other then some value else get? fields key := by
  by_cases heq : key = other
  · simp [get?, heq]
  · have hbeq : (key == other) = false := by simpa using heq
    simp [get?, List.lookup_cons, hbeq, heq]

theorem get?_append (left right : Dict) (key : PyStr) :
    get? (left ++ right) key = (get? left key).or (get? right key) := by
  induction left with
  | nil => rfl
  | cons field left ih =>
      obtain ⟨other, value⟩ := field
      rw [List.cons_append, get?_cons, get?_cons, ih]
      split <;> simp

theorem get?_eq_none_iff (fields : Dict) (key : PyStr) :
    get? fields key = none ↔ ∀ field ∈ fields, field.1 ≠ key := by
  induction fields with
  | nil => simp
  | cons field fields ih =>
      obtain ⟨other, value⟩ := field
      rw [get?_cons]
      by_cases heq : key = other
      · simp [heq]
      · simp [heq, ih, Ne.symm heq]

private theorem get?_map_replace (fields : Dict) (key other : PyStr)
    (value : Json) :
    get? (fields.map fun field => if field.1 = key then (key, value) else field)
        other =
      if other = key then (get? fields key).map fun _ => value
      else get? fields other := by
  induction fields with
  | nil => simp
  | cons field fields ih =>
      obtain ⟨name, old⟩ := field
      by_cases hname : name = key
      · subst name
        by_cases hother : other = key
        · simp [get?_cons, hother]
        · simp [get?_cons, hother, ih]
      · by_cases hother : other = key
        · subst other
          simp [get?_cons, hname, Ne.symm hname, ih]
        · simp [get?_cons, hname, hother, ih]

/-- Reading after an assignment. -/
theorem get?_set (fields : Dict) (key other : PyStr) (value : Json) :
    get? (set fields key value) other =
      if other = key then some value else get? fields other := by
  unfold set
  split
  · next hmem =>
    rw [get?_map_replace]
    have hpresent : get? fields key ≠ none := by
      rw [Ne, get?_eq_none_iff]
      obtain ⟨field, hfield, heq⟩ := List.mem_map.mp hmem
      exact fun hall => hall field hfield heq
    obtain ⟨old, hold⟩ := Option.ne_none_iff_exists'.mp hpresent
    simp [hold]
  · next hmem =>
    have habsent : get? fields key = none := by
      rw [get?_eq_none_iff]
      intro field hfield heq
      exact hmem (List.mem_map.mpr ⟨field, hfield, heq⟩)
    rw [get?_append, get?_cons, get?_nil]
    split
    · next heq => simp [heq, habsent]
    · simp

@[simp]
theorem get?_set_self (fields : Dict) (key : PyStr) (value : Json) :
    get? (set fields key value) key = some value := by
  simp [get?_set]

theorem get?_set_of_ne (fields : Dict) {key other : PyStr} (value : Json)
    (hne : other ≠ key) : get? (set fields key value) other = get? fields other := by
  simp [get?_set, hne]

end Dict

end SsfTransmitter.Python
