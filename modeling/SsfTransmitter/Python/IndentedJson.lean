import SsfTransmitter.Python.JsonText

/-!
# Indented JSON text

`json.dumps` with `indent=2`: each item of a list or a dictionary on a line of
its own.  The decoder skips the white space and inverts this encoder too.
-/

namespace SsfTransmitter.Python

/-! ## Writing -/

/-- The line break of the items of a value written after this line break. -/
def deeper (newline : List Char) : List Char :=
  newline ++ [' ', ' ']

mutual

/-- `json.dumps(value, indent=2)`, nested in lines that start with `newline`. -/
def dumpsNested (newline : List Char) : Json → List Char
  | .list items =>
    if items.isEmpty then ['[', ']']
    else '[' :: deeper newline ++ dumpsNestedItems (deeper newline) items ++ newline ++ [']']
  | .dict fields =>
    if fields.isEmpty then ['\x7b', '\x7d']
    else '\x7b' :: deeper newline ++ dumpsNestedFields (deeper newline) fields ++ newline ++
      ['\x7d']
  | scalar => dumps defaultSeparators scalar

def dumpsNestedItems (newline : List Char) : List Json → List Char
  | [] => []
  | [item] => dumpsNested newline item
  | item :: items =>
    dumpsNested newline item ++ ',' :: newline ++ dumpsNestedItems newline items

def dumpsNestedField (newline : List Char) : PyStr × Json → List Char
  | (key, value) => dumpsStr key ++ ':' :: ' ' :: dumpsNested newline value

def dumpsNestedFields (newline : List Char) : List (PyStr × Json) → List Char
  | [] => []
  | [field] => dumpsNestedField newline field
  | field :: fields =>
    dumpsNestedField newline field ++ ',' :: newline ++ dumpsNestedFields newline fields

end

/-- `json.dumps(value, indent=2)` -/
def dumpsIndented (value : Json) : List Char :=
  dumpsNested ['\n'] value

/-! ## Reading back -/

/-- Text that the decoder skips. -/
def Blank (text : List Char) : Prop :=
  ∀ char ∈ text, isJsonSpace char = true

theorem Blank.deeper {newline : List Char} (hblank : Blank newline) :
    Blank (deeper newline) := by
  intro char hchar
  rcases List.mem_append.mp hchar with hold | hnew
  · exact hblank char hold
  · simp only [List.mem_cons, List.not_mem_nil, or_false, or_self] at hnew
    subst hnew
    decide

theorem Blank.skipSpace_cons {spaces : List Char} (hblank : Blank spaces) {char : Char}
    (hchar : isJsonSpace char = false) (rest : List Char) :
    skipSpace (spaces ++ char :: rest) = char :: rest := by
  rw [skipSpace, List.dropWhile_append_of_pos hblank]
  exact SsfTransmitter.Python.skipSpace_cons char hchar rest

theorem dumpsNested_str (newline : List Char) (value : PyStr) :
    dumpsNested newline (.str value) = dumpsStr value := by
  simp [dumpsNested, dumps]

theorem startsValue_dumpsNested (newline : List Char) {value : Json} (hvalue : Textual value) :
    StartsValue (dumpsNested newline value) := by
  cases hvalue with
  | str _ =>
      rw [dumpsNested_str]
      exact startsValue_dumpsStr _
  | list _ =>
      rw [dumpsNested]
      split
      · exact ⟨'[', _, rfl, by simp⟩
      · exact ⟨'[', _, rfl, by simp⟩
  | dict _ _ _ =>
      rw [dumpsNested]
      split
      · exact ⟨'\x7b', _, rfl, by simp⟩
      · exact ⟨'\x7b', _, rfl, by simp⟩

theorem dumpsNestedItems_cons (newline : List Char) (item next : Json) (items : List Json) :
    dumpsNestedItems newline (item :: next :: items) =
      dumpsNested newline item ++ ',' :: newline ++ dumpsNestedItems newline (next :: items) := by
  rw [dumpsNestedItems]
  simp

theorem dumpsNestedFields_cons (newline : List Char) (field next : PyStr × Json)
    (fields : List (PyStr × Json)) :
    dumpsNestedFields newline (field :: next :: fields) =
      dumpsNestedField newline field ++ ',' :: newline ++
        dumpsNestedFields newline (next :: fields) := by
  rw [dumpsNestedFields]
  simp

theorem startsValue_dumpsNestedItems (newline : List Char) {item : Json} (items : List Json)
    (hitem : Textual item) : StartsValue (dumpsNestedItems newline (item :: items)) := by
  rcases items with _ | ⟨next, items⟩
  · simpa [dumpsNestedItems] using startsValue_dumpsNested newline hitem
  · rw [dumpsNestedItems_cons, List.append_assoc]
    exact (startsValue_dumpsNested newline hitem).append _

theorem startsValue_dumpsNestedFields (newline : List Char) (field : PyStr × Json)
    (fields : List (PyStr × Json)) :
    StartsValue (dumpsNestedFields newline (field :: fields)) := by
  have hfield : StartsValue (dumpsNestedField newline field) := by
    rw [dumpsNestedField]
    exact (startsValue_dumpsStr field.1).append _
  rcases fields with _ | ⟨next, fields⟩
  · simpa [dumpsNestedFields] using hfield
  · rw [dumpsNestedFields_cons, List.append_assoc]
    exact hfield.append _

section RoundTrip

variable [PyRuntime]

/-- With fuel beyond its length, a nested value is read back, and the items of a list or a
dictionary with the blanks before the closing bracket. -/
private def RestoresNested (fuel : ℕ) : Prop :=
  (∀ newline value rest, Blank newline → Textual value →
    (dumpsNested newline value).length ≤ fuel →
    scanValue fuel (dumpsNested newline value ++ rest) = some (value, rest)) ∧
  (∀ newline after item items rest, Blank newline → Blank after →
    (∀ value ∈ item :: items, Textual value) →
    (dumpsNestedItems newline (item :: items)).length + 1 ≤ fuel →
    scanItems fuel (dumpsNestedItems newline (item :: items) ++ (after ++ ']' :: rest)) =
      some (item :: items, rest)) ∧
  (∀ newline after field fields rest, Blank newline → Blank after →
    (∀ pair ∈ field :: fields, encodable pair.1 = true) →
    (∀ pair ∈ field :: fields, Textual pair.2) →
    (dumpsNestedFields newline (field :: fields)).length + 1 ≤ fuel →
    scanFields fuel (dumpsNestedFields newline (field :: fields) ++ (after ++ '\x7d' :: rest)) =
      some (field :: fields, rest))

private theorem restoresNested_list {fuel : ℕ} (hfuel : RestoresNested fuel)
    {newline : List Char} (hblank : Blank newline) {items : List Json}
    (hitems : ∀ item ∈ items, Textual item) (rest : List Char)
    (hlength : (dumpsNested newline (.list items)).length ≤ fuel + 1) :
    scanValue (fuel + 1) (dumpsNested newline (.list items) ++ rest) =
      some (.list items, rest) := by
  rcases items with _ | ⟨item, items⟩
  · simp [dumpsNested, scanValue, skipSpace_cons ']' (by decide)]
  · simp only [dumpsNested, List.isEmpty_cons, Bool.false_eq_true, if_false, List.length_append,
      List.length_cons, List.length_nil] at hlength
    have hbody := hfuel.2.1 (deeper newline) newline item items rest hblank.deeper hblank hitems
      (by omega)
    have hstarts := (startsValue_dumpsNestedItems (deeper newline) items
      (hitems item List.mem_cons_self)).append (newline ++ ']' :: rest)
    simp only [dumpsNested, List.isEmpty_cons, Bool.false_eq_true, if_false, List.cons_append,
      List.append_assoc, List.nil_append, scanValue, hstarts.skipSpace_append hblank.deeper]
    split
    · next heq =>
      obtain ⟨char, tail, htext, hchar⟩ := hstarts
      rw [htext] at heq
      obtain rfl := (List.cons.inj heq).1
      simp at hchar
    · rw [hbody]
      rfl

private theorem restoresNested_dict {fuel : ℕ} (hfuel : RestoresNested fuel)
    {newline : List Char} (hblank : Blank newline) {fields : Dict}
    (hkeys : Dict.WellFormed fields) (hencodable : ∀ field ∈ fields, encodable field.1 = true)
    (hvalues : ∀ field ∈ fields, Textual field.2) (rest : List Char)
    (hlength : (dumpsNested newline (.dict fields)).length ≤ fuel + 1) :
    scanValue (fuel + 1) (dumpsNested newline (.dict fields) ++ rest) =
      some (.dict fields, rest) := by
  rcases fields with _ | ⟨field, fields⟩
  · simp [dumpsNested, scanValue, skipSpace_cons '\x7d' (by decide)]
  · simp only [dumpsNested, List.isEmpty_cons, Bool.false_eq_true, if_false, List.length_append,
      List.length_cons, List.length_nil] at hlength
    have hbody := hfuel.2.2 (deeper newline) newline field fields rest hblank.deeper hblank
      hencodable hvalues (by omega)
    have hstarts := (startsValue_dumpsNestedFields (deeper newline) field fields).append
      (newline ++ '\x7d' :: rest)
    simp only [dumpsNested, List.isEmpty_cons, Bool.false_eq_true, if_false, List.cons_append,
      List.append_assoc, List.nil_append, scanValue, hstarts.skipSpace_append hblank.deeper]
    split
    · next heq =>
      obtain ⟨char, tail, htext, hchar⟩ := hstarts
      rw [htext] at heq
      obtain rfl := (List.cons.inj heq).1
      simp at hchar
    · rw [hbody]
      simp [ofPairs_of_wellFormed _ hkeys]

private theorem restoresNested_items {fuel : ℕ} (hfuel : RestoresNested fuel)
    {newline after : List Char} (hblank : Blank newline) (hafter : Blank after) (item : Json)
    (items : List Json) (rest : List Char) (hitems : ∀ value ∈ item :: items, Textual value)
    (hlength : (dumpsNestedItems newline (item :: items)).length ≤ fuel) :
    scanItems (fuel + 1)
        (dumpsNestedItems newline (item :: items) ++ (after ++ ']' :: rest)) =
      some (item :: items, rest) := by
  have hitem := hitems item List.mem_cons_self
  rcases items with _ | ⟨next, items⟩
  · simp only [dumpsNestedItems] at hlength ⊢
    simp [scanItems, hfuel.1 newline item _ hblank hitem hlength,
      hafter.skipSpace_cons (by decide : isJsonSpace ']' = false)]
  · have htail : ∀ value ∈ next :: items, Textual value := fun value hvalue =>
      hitems value (List.mem_cons_of_mem _ hvalue)
    rw [dumpsNestedItems_cons] at hlength ⊢
    simp only [List.length_append, List.length_cons] at hlength
    have hstarts := (startsValue_dumpsNestedItems newline items
      (htail next List.mem_cons_self)).append (after ++ ']' :: rest)
    have hbody := hfuel.2.1 newline after next items rest hblank hafter htail (by omega)
    rw [List.append_assoc, List.append_assoc, List.cons_append, scanItems,
      hfuel.1 newline item _ hblank hitem (by omega)]
    simp [skipSpace_cons ',' (by decide), hstarts.skipSpace_append hblank, hbody]

/-- `scanFields` once it has read a key and a value. -/
private def fieldsAfter (fuel : ℕ) (key : PyStr) (value : Json) (rest : List Char) :
    Option (List (PyStr × Json) × List Char) :=
  match skipSpace rest with
  | '\x7d' :: rest => some ([(key, value)], rest)
  | ',' :: rest => (scanFields fuel (skipSpace rest)).bind
      fun (fields, rest) => some ((key, value) :: fields, rest)
  | _ => none

private theorem restoresNested_fields {fuel : ℕ} (hfuel : RestoresNested fuel)
    {newline after : List Char} (hblank : Blank newline) (hafter : Blank after)
    (field : PyStr × Json) (fields : List (PyStr × Json)) (rest : List Char)
    (hencodable : ∀ pair ∈ field :: fields, encodable pair.1 = true)
    (hvalues : ∀ pair ∈ field :: fields, Textual pair.2)
    (hlength : (dumpsNestedFields newline (field :: fields)).length ≤ fuel) :
    scanFields (fuel + 1)
        (dumpsNestedFields newline (field :: fields) ++ (after ++ '\x7d' :: rest)) =
      some (field :: fields, rest) := by
  obtain ⟨key, value⟩ := field
  have hkey := hencodable _ List.mem_cons_self
  have hvalue := hvalues _ List.mem_cons_self
  have hstarts := startsValue_dumpsNested newline hvalue
  have hspace : Blank [' '] := by simp [Blank, isJsonSpace]
  -- the key, its mark and the value, whatever follows the value
  have hfield : ∀ text,
      scanFields (fuel + 1) (dumpsNestedField newline (key, value) ++ text) =
        (scanValue fuel (dumpsNested newline value ++ text)).bind fun found =>
          fieldsAfter fuel key found.1 found.2 := by
    intro text
    have hskip := (hstarts.append text).skipSpace_append hspace
    rw [List.singleton_append] at hskip
    simp only [dumpsNestedField, dumpsStr, List.cons_append, List.append_assoc, List.nil_append,
      scanFields, scanString_flatMap_escapeAscii key hkey, Option.bind_eq_bind,
      Option.bind_some, skipSpace_cons ':' (by decide), hskip]
    rfl
  rcases fields with _ | ⟨next, fields⟩
  · simp only [dumpsNestedFields, dumpsNestedField, List.length_append, List.length_cons]
      at hlength ⊢
    have hscan := hfield (after ++ '\x7d' :: rest)
    rw [hfuel.1 newline value _ hblank hvalue (by omega)] at hscan
    simpa [dumpsNestedField, fieldsAfter,
      hafter.skipSpace_cons (by decide : isJsonSpace '\x7d' = false)] using hscan
  · rw [dumpsNestedFields_cons] at hlength ⊢
    simp only [dumpsNestedField, List.length_append, List.length_cons] at hlength
    have hstartsFields := (startsValue_dumpsNestedFields newline next fields).append
      (after ++ '\x7d' :: rest)
    have hbody := hfuel.2.2 newline after next fields rest hblank hafter
      (fun pair hpair => hencodable pair (List.mem_cons_of_mem _ hpair))
      (fun pair hpair => hvalues pair (List.mem_cons_of_mem _ hpair)) (by omega)
    rw [List.append_assoc, List.append_assoc, hfield, List.cons_append,
      hfuel.1 newline value _ hblank hvalue (by omega)]
    simp [fieldsAfter, skipSpace_cons ',' (by decide), hstartsFields.skipSpace_append hblank,
      hbody]

private theorem restoresNested (fuel : ℕ) : RestoresNested fuel := by
  induction fuel with
  | zero =>
      refine ⟨fun newline value rest _ hvalue hlength => ?_, fun _ _ _ _ _ _ _ _ hlength => ?_,
        fun _ _ _ _ _ _ _ _ _ hlength => ?_⟩
      · obtain ⟨char, tail, htext, -⟩ := startsValue_dumpsNested newline hvalue
        simp [htext] at hlength
      · omega
      · omega
  | succ fuel ih =>
      refine ⟨fun newline value rest hblank hvalue hlength => ?_,
        fun newline after item items rest hblank hafter hitems hlength =>
          restoresNested_items ih hblank hafter item items rest hitems (by omega),
        fun newline after field fields rest hblank hafter hencodable hvalues hlength =>
          restoresNested_fields ih hblank hafter field fields rest hencodable hvalues
            (by omega)⟩
      cases hvalue with
      | str hvalue =>
        rw [dumpsNested_str]
        simp only [dumpsStr, List.cons_append, List.append_assoc, List.nil_append, scanValue,
          scanString_flatMap_escapeAscii _ hvalue, Option.map_some]
      | list hitems => exact restoresNested_list ih hblank hitems rest hlength
      | dict hkeys hencodable hvalues =>
        exact restoresNested_dict ih hblank hkeys hencodable hvalues rest hlength

/-- `json.loads(json.dumps(value, indent=2)) == value` for the values that are stored. -/
theorem loads_dumpsIndented {value : Json} (hvalue : Textual value) :
    loads (dumpsIndented value) = some value := by
  have hblank : Blank ['\n'] := by simp [Blank, isJsonSpace]
  have hscan := (restoresNested ((dumpsIndented value).length + 1)).1 ['\n'] value [] hblank
    hvalue (Nat.le_succ _)
  rw [List.append_nil] at hscan
  have hstarts : StartsValue (dumpsIndented value) := startsValue_dumpsNested _ hvalue
  rw [← dumpsIndented] at hscan
  rw [loads, hstarts.skipSpace_eq, hscan]
  rfl

end RoundTrip

end SsfTransmitter.Python
