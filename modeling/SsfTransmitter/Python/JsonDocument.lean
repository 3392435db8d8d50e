import SsfTransmitter.Python.JsonLayout

/-!
# The documents that `json.loads` reads

They are the laid out ones: white space, a value that nests no deeper than the stack
allows, and white space.
-/

namespace SsfTransmitter.Python

/-! ## What was read -/

/-- The white space before the next token. -/
def blankOf (text : PyStr) : Gap :=
  ⟨text.takeWhile isSpacePoint, List.all_takeWhile⟩

theorem blankOf_append_skipPoints (text : PyStr) : (blankOf text).val ++ skipPoints text = text :=
  List.takeWhile_append_dropWhile

section Elements

variable {Element : Type} {close : Char}
  {more : PyStr → Except LoadsError (List Element × PyStr)} {build : List Element → Json}
  {text rest : PyStr}

/-- An element is followed by the closing bracket, or by a comma and other elements. -/
theorem continueWith_ok {element : Element} {elements : List Element}
    (hread : continueWith close more element text = .ok (elements, rest)) :
    (∃ gap : Gap, text = gap.val ++ ofChar close :: rest ∧ elements = [element]) ∨
      ∃ (gap next : Gap) (others : List Element) (tail : PyStr),
        text = gap.val ++ ofChar ',' :: (next.val ++ tail) ∧
          more tail = .ok (others, rest) ∧ elements = element :: others := by
  rw [continueWith] at hread
  rcases hskip : skipPoints text with _ | ⟨point, after⟩
  · rw [hskip] at hread
    cases hread
  · have htext := blankOf_append_skipPoints text
    rw [hskip] at hread htext
    dsimp only at hread
    split_ifs at hread with hclose hcomma
    · obtain ⟨rfl, rfl⟩ := Prod.mk.inj (Except.ok.inj hread)
      rw [hclose] at htext
      exact Or.inl ⟨blankOf text, htext.symm, rfl⟩
    · rcases hmore : more (skipPoints after) with error | ⟨others, last⟩
      · rw [hmore] at hread
        cases hread
      · rw [hmore] at hread
        obtain ⟨rfl, rfl⟩ := Prod.mk.inj (Except.ok.inj hread)
        rw [hcomma, ← blankOf_append_skipPoints after] at htext
        exact Or.inr ⟨blankOf text, blankOf after, others, _, htext.symm, hmore, rfl⟩

/-- An opening bracket is followed by the closing one, or by elements. -/
theorem openWith_ok {value : Json}
    (hread : openWith close more build text = .ok (value, rest)) :
    (∃ gap : Gap, text = gap.val ++ ofChar close :: rest ∧ value = build []) ∨
      ∃ (gap : Gap) (elements : List Element) (tail : PyStr),
        text = gap.val ++ tail ∧ more tail = .ok (elements, rest) ∧ value = build elements := by
  rw [openWith] at hread
  rcases hskip : skipPoints text with _ | ⟨point, after⟩
  · rw [hskip] at hread
    cases hread
  · have htext := blankOf_append_skipPoints text
    rw [hskip] at hread htext
    dsimp only at hread
    split_ifs at hread with hclose
    · obtain ⟨rfl, rfl⟩ := Prod.mk.inj (Except.ok.inj hread)
      rw [hclose] at htext
      exact Or.inl ⟨blankOf text, htext.symm, rfl⟩
    · rcases hmore : more (point :: after) with error | ⟨elements, last⟩
      · rw [hmore] at hread
        cases hread
      · rw [hmore] at hread
        obtain ⟨rfl, rfl⟩ := Prod.mk.inj (Except.ok.inj hread)
        exact Or.inr ⟨blankOf text, elements, _, htext.symm, hmore, rfl⟩

end Elements

/-- A string that is read ends with its quote. -/
theorem exists_literal_of_scan {text rest : PyStr} {units : List (Bool × CodePoint)}
    (hscan : scanUnitPoints text = some (units, rest)) :
    ∃ inner, text = inner ++ ofChar '"' :: rest ∧
      scanUnitPoints (inner ++ [ofChar '"']) = some (units, []) := by
  fun_induction scanUnitPoints text generalizing units rest with
  | case1 => cases hscan
  | case2 after =>
      obtain ⟨rfl, rfl⟩ := Prod.mk.inj (Option.some.inj hscan)
      refine ⟨[], rfl, ?_⟩
      rw [List.nil_append, scanUnitPoints.eq_def]
      exact if_pos rfl
  | case3 => cases hscan
  | case4 first second third fourth after _ ih =>
      simp only [Option.bind_eq_bind, Option.bind_eq_some_iff, Option.some.injEq,
        Prod.exists, Prod.mk.injEq] at hscan
      obtain ⟨unit, hunit, others, last, hrest, rfl, rfl⟩ := hscan
      obtain ⟨inner, rfl, hinner⟩ := ih hrest
      refine ⟨ofChar '\\' :: ofChar 'u' :: first :: second :: third :: fourth :: inner, rfl, ?_⟩
      simp only [List.cons_append]
      rw [scanUnitPoints.eq_def]
      dsimp only
      rw [if_neg (by decide), if_pos rfl, if_pos rfl, hunit, hinner]
      rfl
  | case5 => cases hscan
  | case6 escape after hunicode _ ih =>
      simp only [Option.bind_eq_bind, Option.bind_eq_some_iff, Option.some.injEq,
        Prod.exists, Prod.mk.injEq] at hscan
      obtain ⟨char, hchar, others, last, hrest, rfl, rfl⟩ := hscan
      obtain ⟨inner, rfl, hinner⟩ := ih hrest
      refine ⟨ofChar '\\' :: escape :: inner, rfl, ?_⟩
      simp only [List.cons_append]
      rw [scanUnitPoints.eq_def]
      dsimp only
      rw [if_neg (by decide), if_pos rfl, if_neg hunicode, hchar, hinner]
      rfl
  | case7 => cases hscan
  | case8 point after hquote hslash hcontrol ih =>
      simp only [Option.bind_eq_bind, Option.bind_eq_some_iff, Option.some.injEq,
        Prod.exists, Prod.mk.injEq] at hscan
      obtain ⟨others, last, hrest, rfl, rfl⟩ := hscan
      obtain ⟨inner, rfl, hinner⟩ := ih hrest
      refine ⟨point :: inner, rfl, ?_⟩
      rw [List.cons_append, scanUnitPoints.eq_def]
      dsimp only
      rw [if_neg hquote, if_neg hslash, if_neg hcontrol, hinner]
      rfl

theorem exists_literal {text rest value : PyStr}
    (hread : readString text = .ok (value, rest)) :
    ∃ literal : Literal, text = literal.inner ++ ofChar '"' :: rest ∧ literal.value = value := by
  rcases hscan : scanUnitPoints text with _ | ⟨units, left⟩
  · rw [readString_of_none hscan] at hread
    cases hread
  · rw [readString_of_some hscan] at hread
    obtain ⟨rfl, rfl⟩ := Prod.mk.inj (Except.ok.inj hread)
    obtain ⟨inner, htext, hinner⟩ := exists_literal_of_scan hscan
    exact ⟨⟨inner, units, hinner⟩, htext, rfl⟩

section Runtime

variable [PyRuntime]

/-- A constant or number that a break follows is one token. -/
theorem exists_scalar {text rest : PyStr} {value : Json}
    (hread : readScalar text = .ok (value, rest)) (hrest : Delimited rest) :
    ∃ word : Scalar, text = word.text ++ rest ∧ word.value = value := by
  set front := text.takeWhile fun point => !isBreak point with hfront
  set tail := text.dropWhile fun point => !isBreak point with htail
  have htext : front ++ tail = text := List.takeWhile_append_dropWhile
  have hunbroken : ∀ point ∈ front, isBreak point = false := by
    intro point hpoint
    simpa using List.mem_takeWhile_imp hpoint
  have hwhole : scanScalar (text.map asciiChar) =
      (scanScalar (front.map asciiChar)).map fun scanned =>
        (scanned.1, scanned.2 ++ tail.map asciiChar) := by
    rw [← htext]
    rcases htail' : tail with _ | ⟨point, after⟩
    · rw [List.append_nil, List.map_nil]
      rcases scanScalar (front.map asciiChar) with _ | scanned
      · rfl
      · simp
    · have hpoint : isBreak point = true := by
        have hhead := List.head?_dropWhile_not (fun point => !isBreak point) text
        rw [← htail, htail'] at hhead
        simpa using hhead
      have hfence := endsScalar_of_mem (asciiChar_mem_breakChars hpoint)
      rw [List.map_append, List.map_cons, scanScalar_append hfence]
  rcases hscan : scanScalar (front.map asciiChar) with _ | ⟨found, left⟩
  · rw [hscan] at hwhole
    rw [readScalar_of_none hwhole] at hread
    cases hread
  · rw [hscan] at hwhole
    rw [readScalar_of_some hwhole] at hread
    obtain ⟨rfl, rfl⟩ := Prod.mk.inj (Except.ok.inj hread)
    have hdrop : text.drop (text.length - (left ++ tail.map asciiChar).length) =
        front.drop (front.length - left.length) ++ tail := by
      have hshorter := length_scanScalar_lt hscan
      rw [List.length_map] at hshorter
      have hcount : (front ++ tail).length - (left ++ tail.map asciiChar).length =
          front.length - left.length := by
        simp only [List.length_append, List.length_map]
        omega
      rw [← htext, hcount, List.drop_append_of_le_length (Nat.sub_le ..)]
    rw [hdrop] at hrest ⊢
    have hleft : left = [] := by
      by_contra hne
      have hpos := List.length_pos_iff.mpr hne
      have hshorter := length_scanScalar_lt hscan
      rw [List.length_map] at hshorter
      obtain ⟨point, after, hpoint⟩ := List.exists_cons_of_length_pos
        (l := front.drop (front.length - left.length)) (by rw [List.length_drop]; omega)
      rw [hpoint, List.cons_append, delimited_cons] at hrest
      have hmem : point ∈ front.drop (front.length - left.length) :=
        hpoint ▸ List.mem_cons_self
      rw [hunbroken point (List.mem_of_mem_drop hmem)] at hrest
      cases hrest
    subst hleft
    refine ⟨⟨front, found, hunbroken, hscan⟩, ?_, rfl⟩
    rw [List.length_nil, Nat.sub_zero, List.drop_length, List.nil_append]
    exact htext.symm

/-- What is read from a text is what one of its layouts says. -/
def LaidOut (part : Part) (limit : ℕ) (text rest : PyStr) (result : part.Result) : Prop :=
  ∃ layout : Layout part, layout.depth ≤ limit ∧ text = layout.text ++ rest ∧
    layout.decode = result

/-- All that is read from texts up to a length is laid out. -/
structure ReadsLayouts (bound : ℕ) : Prop where
  value : ∀ {limit text rest value}, text.length ≤ bound →
    readValue limit text = .ok (value, rest) → Delimited rest →
    LaidOut .value limit text rest value
  items : ∀ {limit text rest items}, text.length ≤ bound →
    readItems limit text = .ok (items, rest) → LaidOut .items limit text rest items
  fields : ∀ {limit text rest pairs}, text.length ≤ bound →
    readFields limit text = .ok (pairs, rest) → LaidOut .fields limit text rest pairs

variable {bound limit : ℕ} {text rest : PyStr}

theorem laidOut_list (hbound : ReadsLayouts bound) {value : Json}
    (hlength : text.length ≤ bound)
    (hread : readValue limit (ofChar '[' :: text) = .ok (value, rest)) :
    LaidOut .value limit (ofChar '[' :: text) rest value := by
  cases limit with
  | zero =>
      rw [readValue_list_zero] at hread
      cases hread
  | succ limit =>
      rw [readValue_list] at hread
      rcases openWith_ok hread with ⟨gap, rfl, rfl⟩ | ⟨gap, items, tail, rfl, hitems, rfl⟩
      · refine ⟨.emptyList gap, Nat.le_add_left 1 limit, ?_, rfl⟩
        rw [Layout.text_emptyList, List.cons_append, List.append_assoc, List.singleton_append]
      · rw [List.length_append] at hlength
        obtain ⟨layout, hdepth, rfl, rfl⟩ := hbound.items (by omega) hitems
        refine ⟨.list gap layout, Nat.succ_le_succ hdepth, ?_, rfl⟩
        rw [Layout.text_list, List.cons_append, List.append_assoc]

theorem laidOut_dict (hbound : ReadsLayouts bound) {value : Json}
    (hlength : text.length ≤ bound)
    (hread : readValue limit (ofChar '\x7b' :: text) = .ok (value, rest)) :
    LaidOut .value limit (ofChar '\x7b' :: text) rest value := by
  cases limit with
  | zero =>
      rw [readValue_dict_zero] at hread
      cases hread
  | succ limit =>
      rw [readValue_dict] at hread
      rcases openWith_ok hread with ⟨gap, rfl, rfl⟩ | ⟨gap, pairs, tail, rfl, hpairs, rfl⟩
      · refine ⟨.emptyDict gap, Nat.le_add_left 1 limit, ?_, rfl⟩
        rw [Layout.text_emptyDict, List.cons_append, List.append_assoc, List.singleton_append]
      · rw [List.length_append] at hlength
        obtain ⟨layout, hdepth, rfl, rfl⟩ := hbound.fields (by omega) hpairs
        refine ⟨.dict gap layout, Nat.succ_le_succ hdepth, ?_, rfl⟩
        rw [Layout.text_dict, List.cons_append, List.append_assoc]

theorem laidOut_value (hbound : ReadsLayouts bound) {value : Json}
    (hlength : text.length ≤ bound + 1)
    (hread : readValue limit text = .ok (value, rest)) (hrest : Delimited rest) :
    LaidOut .value limit text rest value := by
  cases text with
  | nil =>
      rw [readValue_nil] at hread
      cases hread
  | cons point text =>
      have hshorter := Nat.le_of_succ_le_succ hlength
      by_cases hquote : point = ofChar '"'
      · subst hquote
        rw [readValue_string] at hread
        rcases hstring : readString text with error | ⟨found, left⟩
        · rw [hstring] at hread
          cases hread
        · rw [hstring] at hread
          obtain ⟨rfl, rfl⟩ := Prod.mk.inj (Except.ok.inj hread)
          obtain ⟨literal, rfl, rfl⟩ := exists_literal hstring
          refine ⟨.string literal, Nat.zero_le limit, ?_, rfl⟩
          simp [Layout.text_string, Literal.text]
      · by_cases hbracket : point = ofChar '['
        · subst hbracket
          exact laidOut_list hbound hshorter hread
        · by_cases hbrace : point = ofChar '\x7b'
          · subst hbrace
            exact laidOut_dict hbound hshorter hread
          · rw [readValue_other limit hquote hbracket hbrace] at hread
            obtain ⟨word, hword, rfl⟩ := exists_scalar hread hrest
            refine ⟨.scalar word, Nat.zero_le limit, ?_, rfl⟩
            rw [Layout.text_scalar]
            exact hword

omit [PyRuntime] in
theorem bind_ok {Value Result : Type} {outcome : Except LoadsError Value}
    {next : Value → Except LoadsError Result} {result : Result}
    (hread : outcome.bind next = .ok result) :
    ∃ value, outcome = .ok value ∧ next value = .ok result := by
  cases outcome with
  | error => cases hread
  | ok value => exact ⟨value, rfl, hread⟩

theorem laidOut_items (hbound : ReadsLayouts bound) {items : List Json}
    (hlength : text.length ≤ bound + 1) (hread : readItems limit text = .ok (items, rest)) :
    LaidOut .items limit text rest items := by
  rw [readItems_eq] at hread
  obtain ⟨⟨item, left⟩, hitem, hmore⟩ := bind_ok hread
  rcases continueWith_ok hmore with ⟨gap, rfl, rfl⟩ | ⟨gap, next, others, tail, rfl, hothers, rfl⟩
  · obtain ⟨first, hdepth, rfl, rfl⟩ := laidOut_value hbound hlength hitem
      (delimited_gap gap (by decide) rest)
    refine ⟨.lastItem first gap, hdepth, ?_, rfl⟩
    simp [Layout.text_lastItem]
  · have hcomma : isBreak (ofChar ',') = true := by decide
    obtain ⟨first, hdepth, rfl, rfl⟩ := laidOut_value hbound hlength hitem
      (delimited_gap gap hcomma (next.val ++ tail))
    have hshorter := length_lt_of_plain hitem
    simp only [List.length_append, List.length_cons] at hlength hshorter
    obtain ⟨layout, hothersDepth, rfl, rfl⟩ := hbound.items (by omega) hothers
    refine ⟨.item first gap next layout, max_le hdepth hothersDepth, ?_, rfl⟩
    simp [Layout.text_item]

theorem readField_ok {pair : PyStr × Json} (hread : readField limit text = .ok (pair, rest)) :
    ∃ (key : Literal) (gap next : Gap) (tail : PyStr) (value : Json),
      text = ofChar '"' :: (key.inner ++ ofChar '"' ::
        (gap.val ++ ofChar ':' :: (next.val ++ tail))) ∧
      readValue limit tail = .ok (value, rest) ∧ pair = (key.value, value) := by
  cases text with
  | nil => cases hread
  | cons point text =>
      rw [readField] at hread
      split_ifs at hread with hquote
      rw [not_not] at hquote
      rcases hstring : readString text with error | ⟨found, left⟩
      · rw [hstring] at hread
        cases hread
      · rw [hstring] at hread
        simp only [bind, Except.bind] at hread
        rcases hskip : skipPoints left with _ | ⟨colon, after⟩
        · rw [hskip] at hread
          cases hread
        · rw [hskip] at hread
          dsimp only at hread
          split_ifs at hread with hcolon
          rcases hvalue : readValue limit (skipPoints after) with error | ⟨value, last⟩
          · rw [hvalue] at hread
            cases hread
          · rw [hvalue] at hread
            obtain ⟨rfl, rfl⟩ := Prod.mk.inj (Except.ok.inj hread)
            obtain ⟨key, rfl, rfl⟩ := exists_literal hstring
            refine ⟨key, blankOf left, blankOf after, skipPoints after, value, ?_, hvalue, rfl⟩
            rw [blankOf_append_skipPoints, ← hcolon, ← hskip, blankOf_append_skipPoints, hquote]

theorem laidOut_field (hbound : ReadsLayouts bound) {pair : PyStr × Json}
    (hlength : text.length ≤ bound + 1) (hread : readField limit text = .ok (pair, rest))
    (hrest : Delimited rest) : LaidOut .field limit text rest pair := by
  obtain ⟨key, gap, next, tail, value, rfl, hvalue, rfl⟩ := readField_ok hread
  simp only [List.length_append, List.length_cons] at hlength
  obtain ⟨nested, hdepth, rfl, rfl⟩ := hbound.value (by omega) hvalue hrest
  refine ⟨.field key gap next nested, hdepth, ?_, rfl⟩
  simp [Layout.text_field]

theorem laidOut_fields (hbound : ReadsLayouts bound) {pairs : List (PyStr × Json)}
    (hlength : text.length ≤ bound + 1) (hread : readFields limit text = .ok (pairs, rest)) :
    LaidOut .fields limit text rest pairs := by
  rw [readFields_eq] at hread
  obtain ⟨⟨pair, left⟩, hpair, hmore⟩ := bind_ok hread
  rcases continueWith_ok hmore with ⟨gap, rfl, rfl⟩ | ⟨gap, next, others, tail, rfl, hothers, rfl⟩
  · obtain ⟨first, hdepth, rfl, rfl⟩ := laidOut_field hbound hlength hpair
      (delimited_gap gap (by decide) rest)
    refine ⟨.lastField first gap, hdepth, ?_, rfl⟩
    simp [Layout.text_lastField]
  · have hcomma : isBreak (ofChar ',') = true := by decide
    obtain ⟨first, hdepth, rfl, rfl⟩ := laidOut_field hbound hlength hpair
      (delimited_gap gap hcomma (next.val ++ tail))
    obtain ⟨point, after, hstart, -⟩ := first.exists_text_eq
    rw [hstart] at hlength
    simp only [List.length_append, List.length_cons] at hlength
    obtain ⟨layout, hothersDepth, rfl, rfl⟩ := hbound.fields (by omega) hothers
    refine ⟨.fields first gap next layout, max_le hdepth hothersDepth, ?_, rfl⟩
    simp [Layout.text_fields]

theorem readsLayouts (bound : ℕ) : ReadsLayouts bound := by
  induction bound with
  | zero =>
      constructor
      · intro limit text rest value hlength hread
        rw [List.length_eq_zero_iff.mp (Nat.le_zero.mp hlength), readValue_nil] at hread
        cases hread
      · intro limit text rest items hlength hread
        rw [List.length_eq_zero_iff.mp (Nat.le_zero.mp hlength), readItems_nil] at hread
        cases hread
      · intro limit text rest pairs hlength hread
        rw [List.length_eq_zero_iff.mp (Nat.le_zero.mp hlength), readFields_nil] at hread
        cases hread
  | succ bound ih =>
      constructor
      · exact laidOut_value ih
      · exact laidOut_items ih
      · exact laidOut_fields ih

end Runtime

/-! ## Documents -/

/-- A JSON document that nests no deeper than `containers`. -/
structure Document [PyRuntime] (containers : ℕ) where
  lead : Gap
  root : Layout .value
  trail : Gap
  nested : root.depth ≤ containers

namespace Document

variable [PyRuntime] {containers : ℕ} (document : Document containers)

def text : PyStr :=
  document.lead.val ++ (document.root.text ++ document.trail.val)

/-- Where the value ends. -/
def closing : ℕ :=
  document.lead.val.length + document.root.text.length

theorem loadsText_eq (text : PyStr) :
    loadsText containers text =
      (readValue containers (skipPoints text)).bind fun scanned =>
        if (skipPoints scanned.2).isEmpty then .ok scanned.1 else .error .jsonDecode := by
  rw [loadsText, readValue]
  rcases scanOnce containers (skipPoints text) with error | scanned <;> rfl

/-- A document that was cut behind its value is read as before. -/
theorem loadsText_take_of_ge {length : ℕ} (hlength : document.closing ≤ length) :
    loadsText containers (document.text.take length) = .ok document.root.decode := by
  rw [closing] at hlength
  set reach := length - document.lead.val.length - document.root.text.length
  have htext : document.text.take length =
      document.lead.val ++ (document.root.text ++ document.trail.val.take reach) := by
    rw [text, take_append_of_ge _ (by omega), take_append_of_ge _ (by omega)]
  have htrail : skipPoints (document.trail.val.take reach) = [] := by
    have hskip := skipPoints_take_blank document.trail [] reach
    rwa [List.append_nil, List.take_nil] at hskip
  have hdelimited : Delimited (document.trail.val.take reach) := by
    have hblank := delimited_take (delimited_blank_append document.trail delimited_nil) reach
    rwa [List.append_nil] at hblank
  have hread : readValue containers (document.root.text ++ document.trail.val.take reach) =
      .ok (document.root.decode, document.trail.val.take reach) :=
    read_text document.root containers document.nested hdelimited
  rw [htext, loadsText_eq, skipPoints_blank, document.root.skipPoints_text_append, hread]
  change (if (skipPoints (document.trail.val.take reach)).isEmpty then _ else _) = _
  rw [htrail]
  rfl

/-- A document that was cut inside its value is refused. -/
theorem loadsText_take_of_lt (hends : document.root.endsScalar = false) {length : ℕ}
    (hlength : length < document.closing) :
    loadsText containers (document.text.take length) =
      .error (cutError (length - document.lead.val.length) document.root.tokens) := by
  rw [closing] at hlength
  have hreach : length - document.lead.val.length < document.root.text.length := by
    obtain ⟨point, tail, hroot, -⟩ := document.root.exists_text_eq
    rw [hroot, List.length_cons] at hlength ⊢
    omega
  have hread := (torn document.root containers document.nested hreach).error hends
  rw [text, loadsText_eq, skipPoints_take_blank,
    List.take_append_of_le_length hreach.le, skipPoints_take_text]
  rw [show readValue containers _ = _ from hread]
  rfl

theorem closing_le_length : document.closing ≤ document.text.length := by
  rw [closing, text, List.length_append, List.length_append]
  omega

/-- The documents are the texts that `json.loads` reads. -/
theorem loadsText_eq_ok_iff {text : PyStr} {value : Json} :
    loadsText containers text = .ok value ↔
      ∃ document : Document containers, document.text = text ∧ document.root.decode = value := by
  constructor
  · intro hload
    rw [loadsText_eq] at hload
    obtain ⟨⟨found, rest⟩, hread, hend⟩ := bind_ok hload
    dsimp only at hend
    split_ifs at hend with hempty
    obtain rfl := Except.ok.inj hend
    have hblank : (blankOf rest).val = rest := by
      have hsplit := blankOf_append_skipPoints rest
      rwa [List.isEmpty_iff.mp hempty, List.append_nil] at hsplit
    have hdelimited : Delimited rest := by
      have hspaces := delimited_blank_append (blankOf rest) delimited_nil
      rwa [List.append_nil, hblank] at hspaces
    obtain ⟨root, hdepth, hroot, rfl⟩ := (readsLayouts _).value le_rfl hread hdelimited
    refine ⟨⟨blankOf text, root, blankOf rest, hdepth⟩, ?_, rfl⟩
    rw [Document.text, hblank, ← hroot]
    exact blankOf_append_skipPoints text
  · rintro ⟨document, rfl, rfl⟩
    have hload := document.loadsText_take_of_ge document.closing_le_length
    rwa [List.take_length] at hload

end Document

end SsfTransmitter.Python
