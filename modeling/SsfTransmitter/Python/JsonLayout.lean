import SsfTransmitter.Python.JsonReader

/-!
# JSON documents as texts

A document with its white space and the spelling of its strings and numbers.  The
decoder reads every one back, reads nothing else, and refuses one that was cut before
its last bracket.
-/

namespace SsfTransmitter.Python

/-! ## Tokens -/

/-- White space. -/
abbrev Gap := {text : PyStr // text.all isSpacePoint = true}

/-- A string as it is written between its quotes. -/
structure Literal where
  inner : PyStr
  units : List (Bool × CodePoint)
  scanned : scanUnitPoints (inner ++ [ofChar '"']) = some (units, [])

/-- A constant or a number as it is written. -/
structure Scalar [PyRuntime] where
  text : PyStr
  value : Json
  unbroken : ∀ point ∈ text, isBreak point = false
  scanned : scanScalar (text.map asciiChar) = some (value, [])

theorem skipPoints_blank (blank : Gap) (text : PyStr) :
    skipPoints (blank.val ++ text) = skipPoints text := by
  rw [skipPoints, List.dropWhile_append_of_pos]
  · rfl
  · exact List.all_eq_true.mp blank.property

theorem skipPoints_cons {point : CodePoint} (hpoint : isSpacePoint point = false)
    (rest : PyStr) : skipPoints (point :: rest) = point :: rest := by
  rw [skipPoints, List.dropWhile_cons_of_neg]
  rw [hpoint]
  exact Bool.false_ne_true

theorem skipPoints_blank_cons (blank : Gap) {point : CodePoint}
    (hpoint : isSpacePoint point = false) (rest : PyStr) :
    skipPoints (blank.val ++ point :: rest) = point :: rest := by
  rw [skipPoints_blank, skipPoints_cons hpoint]

theorem isSpacePoint_of_isBreak_eq_false {point : CodePoint} (hpoint : isBreak point = false) :
    isSpacePoint point = false := by
  by_contra hspace
  rw [Bool.not_eq_false] at hspace
  rw [isBreak_of_isSpacePoint hspace] at hpoint
  cases hpoint

theorem delimited_blank_append (blank : Gap) {text : PyStr} (htext : Delimited text) :
    Delimited (blank.val ++ text) := by
  obtain ⟨_ | ⟨point, rest⟩, hblank⟩ := blank
  · exact htext
  · rw [List.cons_append, delimited_cons]
    rw [List.all_cons, Bool.and_eq_true] at hblank
    exact isBreak_of_isSpacePoint hblank.1

theorem delimited_gap (gap : Gap) {mark : Char} (hmark : isBreak (ofChar mark) = true)
    (rest : PyStr) : Delimited (gap.val ++ ofChar mark :: rest) :=
  delimited_blank_append gap (delimited_cons.mpr hmark)

namespace Literal

variable (literal : Literal)

def text : PyStr :=
  ofChar '"' :: literal.inner ++ [ofChar '"']

def value : PyStr :=
  joinSurrogates literal.units

end Literal

/-- What follows the closing quote of a string does not change it. -/
theorem scanUnitPoints_append {text rest : PyStr} {units : List (Bool × CodePoint)}
    (hscan : scanUnitPoints text = some (units, rest)) (more : PyStr) :
    scanUnitPoints (text ++ more) = some (units, rest ++ more) := by
  fun_induction scanUnitPoints text generalizing units rest with
  | case1 => cases hscan
  | case2 after =>
      obtain ⟨rfl, rfl⟩ := Prod.mk.inj (Option.some.inj hscan)
      rw [List.cons_append, scanUnitPoints.eq_def]
      exact if_pos rfl
  | case3 => cases hscan
  | case4 first second third fourth after _ ih =>
      simp only [Option.bind_eq_bind, Option.bind_eq_some_iff, Option.some.injEq,
        Prod.exists, Prod.mk.injEq] at hscan
      obtain ⟨unit, hunit, others, last, hrest, rfl, rfl⟩ := hscan
      simp only [List.cons_append]
      rw [scanUnitPoints.eq_def]
      dsimp only
      rw [if_neg (by decide), if_pos rfl, if_pos rfl, hunit, ih hrest]
      rfl
  | case5 => cases hscan
  | case6 escape after hunicode _ ih =>
      simp only [Option.bind_eq_bind, Option.bind_eq_some_iff, Option.some.injEq,
        Prod.exists, Prod.mk.injEq] at hscan
      obtain ⟨char, hchar, others, last, hrest, rfl, rfl⟩ := hscan
      simp only [List.cons_append]
      rw [scanUnitPoints.eq_def]
      dsimp only
      rw [if_neg (by decide), if_pos rfl, if_neg hunicode, hchar, ih hrest]
      rfl
  | case7 => cases hscan
  | case8 point after hquote hslash hcontrol ih =>
      simp only [Option.bind_eq_bind, Option.bind_eq_some_iff, Option.some.injEq,
        Prod.exists, Prod.mk.injEq] at hscan
      obtain ⟨others, last, hrest, rfl, rfl⟩ := hscan
      rw [List.cons_append, scanUnitPoints.eq_def]
      dsimp only
      rw [if_neg hquote, if_neg hslash, if_neg hcontrol, ih hrest]
      rfl

namespace Literal

variable (literal : Literal)

theorem readString_eq (rest : PyStr) :
    readString (literal.inner ++ ofChar '"' :: rest) = .ok (literal.value, rest) := by
  have hscan := scanUnitPoints_append literal.scanned rest
  rw [List.append_assoc] at hscan
  exact readString_of_some hscan

/-- Without its closing quote a string is none. -/
theorem readString_take {length : ℕ} (hlength : length ≤ literal.inner.length) :
    readString ((literal.inner ++ [ofChar '"']).take length) = .error .jsonDecode := by
  apply readString_of_none
  rw [Option.eq_none_iff_forall_ne_some]
  rintro ⟨units, rest⟩ hscan
  have hwhole := scanUnitPoints_append hscan ((literal.inner ++ [ofChar '"']).drop length)
  rw [List.take_append_drop, literal.scanned] at hwhole
  have hnil := (List.append_eq_nil_iff.mp (Prod.mk.inj (Option.some.inj hwhole)).2.symm).2
  have hdropped := congrArg List.length hnil
  rw [List.length_drop, List.length_append, List.length_singleton, List.length_nil] at hdropped
  omega

end Literal

/-! ## Scalars -/

section Scalars

variable [PyRuntime]

namespace Scalar

variable (scalar : Scalar)

theorem text_ne_nil : scalar.text ≠ [] := by
  intro hnil
  have hscan := scalar.scanned
  rw [hnil] at hscan
  have hnone : scanScalar (([] : PyStr).map asciiChar) = none := rfl
  rw [hnone] at hscan
  cases hscan

theorem readScalar_eq {rest : PyStr} (hrest : Delimited rest) :
    readScalar (scalar.text ++ rest) = .ok (scalar.value, rest) := by
  have hscan : scanScalar ((scalar.text ++ rest).map asciiChar) =
      some (scalar.value, rest.map asciiChar) := by
    cases rest with
    | nil =>
        rw [List.append_nil]
        exact scalar.scanned
    | cons point after =>
        have hfence := endsScalar_of_mem (asciiChar_mem_breakChars (delimited_cons.mp hrest))
        rw [List.map_append, List.map_cons, scanScalar_append hfence, scalar.scanned]
        rfl
  rw [readScalar_of_some hscan, List.length_append, List.length_map, Nat.add_sub_cancel,
    List.drop_left]

/-- A piece of a scalar: refused, or read with a rest in which no token can start. -/
theorem readScalar_take (length : ℕ) :
    readScalar (scalar.text.take length) = .error
        (if startsLongInteger ((scalar.text.take length).map asciiChar) then .intDigits
          else .jsonDecode) ∨
      startsLongInteger ((scalar.text.take length).map asciiChar) = false ∧
        ∃ value rest, readScalar (scalar.text.take length) = .ok (value, rest) ∧
          ∀ point ∈ rest, isBreak point = false := by
  rcases hscan : scanScalar ((scalar.text.take length).map asciiChar) with _ | ⟨value, rest⟩
  · exact Or.inl (readScalar_of_none hscan)
  · refine Or.inr ⟨startsLongInteger_of_scanScalar hscan, value, _, readScalar_of_some hscan, ?_⟩
    intro point hpoint
    exact scalar.unbroken point (List.mem_of_mem_take (List.mem_of_mem_drop hpoint))

theorem startsLongInteger_text : startsLongInteger (scalar.text.map asciiChar) = false :=
  startsLongInteger_of_scanScalar scalar.scanned

end Scalar

end Scalars

/-! ## Layouts -/

/-- The parts of a document that are read on their own; those of an array and of an
object go up to the closing bracket. -/
inductive Part where
  | value
  | items
  | field
  | fields

/-- What a part is read as. -/
def Part.Result : Part → Type
  | .value => Json
  | .items => List Json
  | .field => PyStr × Json
  | .fields => List (PyStr × Json)

/-- The text of a document, part by part. -/
inductive Layout [PyRuntime] : Part → Type where
  | scalar (scalar : Scalar) : Layout .value
  | string (literal : Literal) : Layout .value
  | emptyList (gap : Gap) : Layout .value
  | list (gap : Gap) (items : Layout .items) : Layout .value
  | emptyDict (gap : Gap) : Layout .value
  | dict (gap : Gap) (fields : Layout .fields) : Layout .value
  | lastItem (item : Layout .value) (gap : Gap) : Layout .items
  | item (item : Layout .value) (gap next : Gap) (items : Layout .items) : Layout .items
  | field (key : Literal) (gap next : Gap) (value : Layout .value) : Layout .field
  | lastField (field : Layout .field) (gap : Gap) : Layout .fields
  | fields (field : Layout .field) (gap next : Gap) (fields : Layout .fields) :
      Layout .fields

/-- A piece of a document: text without numbers, or a scalar. -/
inductive Token [PyRuntime] where
  | mark (text : PyStr)
  | word (scalar : Scalar)

section Tokens

variable [PyRuntime]

namespace Token

def text : Token → PyStr
  | mark text => text
  | word scalar => scalar.text

/-- Whether a cut leaves an integer that is too long to convert. -/
def cutsInteger (length : ℕ) : Token → Bool
  | mark _ => false
  | word scalar => startsLongInteger ((scalar.text.take length).map asciiChar)

end Token

/-- The text of a sequence of tokens. -/
def textOf (tokens : List Token) : PyStr :=
  tokens.flatMap Token.text

/-- Whether a cut leaves an integer that is too long to convert at its end. -/
def cutsInteger (length : ℕ) : List Token → Bool
  | [] => false
  | token :: rest => token.cutsInteger length || cutsInteger (length - token.text.length) rest

namespace Layout

def tokens : {part : Part} → Layout part → List Token
  | _, .scalar word => [.word word]
  | _, .string literal => [.mark literal.text]
  | _, .emptyList gap => [.mark (ofChar '[' :: gap.val ++ [ofChar ']'])]
  | _, .list gap items => .mark (ofChar '[' :: gap.val) :: items.tokens
  | _, .emptyDict gap => [.mark (ofChar '\x7b' :: gap.val ++ [ofChar '\x7d'])]
  | _, .dict gap pairs => .mark (ofChar '\x7b' :: gap.val) :: pairs.tokens
  | _, .lastItem first gap => first.tokens ++ [.mark (gap.val ++ [ofChar ']'])]
  | _, .item first gap next rest =>
    first.tokens ++ .mark (gap.val ++ ofChar ',' :: next.val) :: rest.tokens
  | _, .field key gap next nested =>
    .mark (key.text ++ gap.val ++ ofChar ':' :: next.val) :: nested.tokens
  | _, .lastField first gap => first.tokens ++ [.mark (gap.val ++ [ofChar '\x7d'])]
  | _, .fields first gap next rest =>
    first.tokens ++ .mark (gap.val ++ ofChar ',' :: next.val) :: rest.tokens

def text {part : Part} (layout : Layout part) : PyStr :=
  textOf layout.tokens

/-- How many containers lie inside each other. -/
def depth : {part : Part} → Layout part → ℕ
  | _, .scalar _ => 0
  | _, .string _ => 0
  | _, .emptyList _ => 1
  | _, .list _ items => items.depth + 1
  | _, .emptyDict _ => 1
  | _, .dict _ pairs => pairs.depth + 1
  | _, .lastItem first _ => first.depth
  | _, .item first _ _ rest => max first.depth rest.depth
  | _, .field _ _ _ nested => nested.depth
  | _, .lastField first _ => first.depth
  | _, .fields first _ _ rest => max first.depth rest.depth

/-- What a part says. -/
def decode : {part : Part} → Layout part → part.Result
  | _, .scalar word => word.value
  | _, .string literal => Json.str literal.value
  | _, .emptyList _ => Json.list []
  | _, .list _ items => Json.list items.decode
  | _, .emptyDict _ => Json.dict []
  | _, .dict _ pairs => Json.dict (ofPairs pairs.decode)
  | _, .lastItem first _ => [first.decode]
  | _, .item first _ _ rest => first.decode :: rest.decode
  | _, .field key _ _ nested => (key.value, nested.decode)
  | _, .lastField first _ => [first.decode]
  | _, .fields first _ _ rest => first.decode :: rest.decode

section Text

theorem textOf_cons (token : Token) (rest : List Token) :
    textOf (token :: rest) = token.text ++ textOf rest :=
  rfl

theorem textOf_append (first rest : List Token) :
    textOf (first ++ rest) = textOf first ++ textOf rest :=
  List.flatMap_append

attribute [local simp] text tokens textOf Token.text

variable (word : Scalar) (literal : Literal) (gap next : Gap) (first : Layout .value)
  (items : Layout .items) (pair : Layout .field) (pairs : Layout .fields)

theorem text_scalar : (scalar word).text = word.text := by
  simp

theorem text_string : (string literal).text = literal.text := by
  simp

theorem text_emptyList :
    (emptyList gap).text = ofChar '[' :: (gap.val ++ [ofChar ']']) := by
  simp

theorem text_list : (list gap items).text = ofChar '[' :: (gap.val ++ items.text) := by
  simp

theorem text_emptyDict :
    (emptyDict gap).text = ofChar '\x7b' :: (gap.val ++ [ofChar '\x7d']) := by
  simp

theorem text_dict : (dict gap pairs).text = ofChar '\x7b' :: (gap.val ++ pairs.text) := by
  simp

theorem text_lastItem :
    (lastItem first gap).text = first.text ++ (gap.val ++ [ofChar ']']) := by
  simp

theorem text_item :
    (item first gap next items).text =
      first.text ++ (gap.val ++ ofChar ',' :: (next.val ++ items.text)) := by
  simp

theorem text_field :
    (field literal gap next first).text =
      ofChar '"' :: (literal.inner ++ ofChar '"' ::
        (gap.val ++ ofChar ':' :: (next.val ++ first.text))) := by
  simp [Literal.text]

theorem text_lastField :
    (lastField pair gap).text = pair.text ++ (gap.val ++ [ofChar '\x7d']) := by
  simp

theorem text_fields :
    (fields pair gap next pairs).text =
      pair.text ++ (gap.val ++ ofChar ',' :: (next.val ++ pairs.text)) := by
  simp

end Text

/-- A part starts with a token of its own. -/
theorem exists_text_eq {part : Part} (layout : Layout part) :
    ∃ point rest, layout.text = point :: rest ∧ isSpacePoint point = false ∧
      point ≠ ofChar ']' ∧ point ≠ ofChar '\x7d' := by
  have hlonger : ∀ {head : PyStr} (tail : PyStr),
      (∃ point rest, head = point :: rest ∧ isSpacePoint point = false ∧
        point ≠ ofChar ']' ∧ point ≠ ofChar '\x7d') →
      ∃ point rest, head ++ tail = point :: rest ∧ isSpacePoint point = false ∧
        point ≠ ofChar ']' ∧ point ≠ ofChar '\x7d' := by
    intro head tail hhead
    obtain ⟨point, rest, rfl, hpoint⟩ := hhead
    exact ⟨point, rest ++ tail, rfl, hpoint⟩
  induction layout with
  | scalar word =>
      rw [text_scalar]
      obtain ⟨point, rest, htext⟩ := List.exists_cons_of_ne_nil word.text_ne_nil
      have hpoint := word.unbroken point (htext ▸ List.mem_cons_self)
      refine ⟨point, rest, htext, isSpacePoint_of_isBreak_eq_false hpoint, ?_, ?_⟩
      · rintro rfl
        exact absurd hpoint (by decide)
      · rintro rfl
        exact absurd hpoint (by decide)
  | string literal => exact ⟨ofChar '"', _, text_string literal, by decide⟩
  | emptyList gap => exact ⟨ofChar '[', _, text_emptyList gap, by decide⟩
  | list gap items _ => exact ⟨ofChar '[', _, text_list gap items, by decide⟩
  | emptyDict gap => exact ⟨ofChar '\x7b', _, text_emptyDict gap, by decide⟩
  | dict gap pairs _ => exact ⟨ofChar '\x7b', _, text_dict gap pairs, by decide⟩
  | lastItem first gap ih =>
      rw [text_lastItem]
      exact hlonger _ ih
  | item first gap next rest ih _ =>
      rw [text_item]
      exact hlonger _ ih
  | field key gap next nested _ =>
      exact ⟨ofChar '"', _, text_field key gap next nested, by decide⟩
  | lastField first gap ih =>
      rw [text_lastField]
      exact hlonger _ ih
  | fields first gap next rest ih _ =>
      rw [text_fields]
      exact hlonger _ ih

theorem skipPoints_text_append {part : Part} (layout : Layout part) (rest : PyStr) :
    skipPoints (layout.text ++ rest) = layout.text ++ rest := by
  obtain ⟨point, tail, htext, hspace, -⟩ := layout.exists_text_eq
  rw [htext, List.cons_append, skipPoints_cons hspace]

end Layout

/-! ## Reading a layout -/

/-- The decoder on a part. -/
def Part.read : (part : Part) → ℕ → PyStr → Except LoadsError (part.Result × PyStr)
  | .value, limit, text => readValue limit text
  | .items, limit, text => readItems limit text
  | .field, limit, text => readField limit text
  | .fields, limit, text => readFields limit text

section Elements

variable {Element : Type} {close : Char}
  {more : PyStr → Except LoadsError (List Element × PyStr)} {build : List Element → Json}

omit [PyRuntime] in
theorem openWith_blank (hclose : isSpacePoint (ofChar close) = false) (gap : Gap)
    (rest : PyStr) :
    openWith close more build (gap.val ++ ofChar close :: rest) = .ok (build [], rest) :=
  openWith_of_close (skipPoints_blank_cons gap hclose rest)

theorem openWith_text {part : Part} (layout : Layout part)
    (hclose : close = ']' ∨ close = '\x7d') (gap : Gap) {rest : PyStr}
    {elements : List Element} (hmore : more (layout.text ++ rest) = .ok (elements, rest)) :
    openWith close more build (gap.val ++ (layout.text ++ rest)) =
      .ok (build elements, rest) := by
  have hskip := (skipPoints_blank gap _).trans (layout.skipPoints_text_append rest)
  obtain ⟨point, tail, htext, -, hbracket, hbrace⟩ := layout.exists_text_eq
  have hother : point ≠ ofChar close := by
    rcases hclose with rfl | rfl
    · exact hbracket
    · exact hbrace
  rw [htext, List.cons_append] at hskip hmore ⊢
  rw [openWith_of_other hskip hother, hmore]
  rfl

omit [PyRuntime] in
theorem continueWith_last (hclose : isSpacePoint (ofChar close) = false) (element : Element)
    (gap : Gap) (rest : PyStr) :
    continueWith close more element (gap.val ++ ofChar close :: rest) =
      .ok ([element], rest) :=
  continueWith_of_close element (skipPoints_blank_cons gap hclose rest)

theorem continueWith_text {part : Part} (layout : Layout part) (hclose : close ≠ ',')
    (element : Element) (gap next : Gap) {rest : PyStr} {elements : List Element}
    (hmore : more (layout.text ++ rest) = .ok (elements, rest)) :
    continueWith close more element
        (gap.val ++ ofChar ',' :: (next.val ++ (layout.text ++ rest))) =
      .ok (element :: elements, rest) := by
  have hcomma : isSpacePoint (ofChar ',') = false := by decide
  rw [continueWith_of_comma element hclose (skipPoints_blank_cons gap hcomma _),
    skipPoints_blank, layout.skipPoints_text_append, hmore]
  rfl

end Elements

theorem readField_eq (limit : ℕ) (key : Literal) (gap : Gap) (rest : PyStr) :
    readField limit (ofChar '"' :: (key.inner ++ ofChar '"' ::
        (gap.val ++ ofChar ':' :: rest))) =
      (readValue limit (skipPoints rest)).map fun scanned =>
        ((key.value, scanned.1), scanned.2) := by
  have hcolon : isSpacePoint (ofChar ':') = false := by decide
  have hskip := skipPoints_blank_cons gap hcolon rest
  rw [readField, if_neg (not_not_intro rfl), key.readString_eq]
  simp only [bind, Except.bind, hskip, if_pos]
  rcases readValue limit (skipPoints rest) with error | scanned <;> rfl

/-- The decoder reads a layout back, up to its end. -/
theorem read_text {part : Part} (layout : Layout part) (limit : ℕ)
    (hdepth : layout.depth ≤ limit) {rest : PyStr} (hrest : Delimited rest) :
    part.read limit (layout.text ++ rest) = .ok (layout.decode, rest) := by
  induction layout generalizing limit rest with
  | scalar word =>
      obtain ⟨point, tail, htext⟩ := List.exists_cons_of_ne_nil word.text_ne_nil
      have hscan := word.readScalar_eq hrest
      have hpoint := word.unbroken point (htext ▸ List.mem_cons_self)
      rw [Layout.text_scalar]
      rw [htext, List.cons_append] at hscan ⊢
      exact (readValue_scalar limit hpoint _).trans hscan
  | string literal =>
      have hscan := literal.readString_eq rest
      have htext : (Layout.string literal).text ++ rest =
          ofChar '"' :: (literal.inner ++ ofChar '"' :: rest) := by
        simp [Layout.text_string, Literal.text]
      rw [htext]
      exact (readValue_string limit _).trans (by rw [hscan]; rfl)
  | emptyList gap =>
      obtain ⟨limit, rfl⟩ := Nat.exists_eq_add_of_le' hdepth
      rw [Layout.text_emptyList, List.cons_append, List.append_assoc]
      exact (readValue_list limit _).trans (openWith_blank (by decide) gap rest)
  | list gap items ih =>
      obtain ⟨limit, rfl⟩ := Nat.exists_eq_succ_of_ne_zero (Nat.ne_zero_of_lt hdepth)
      have hitems : readItems limit (items.text ++ rest) = .ok (items.decode, rest) :=
        ih limit (Nat.le_of_succ_le_succ hdepth) hrest
      rw [Layout.text_list, List.cons_append, List.append_assoc]
      exact (readValue_list limit _).trans (openWith_text items (Or.inl rfl) gap hitems)
  | emptyDict gap =>
      obtain ⟨limit, rfl⟩ := Nat.exists_eq_add_of_le' hdepth
      rw [Layout.text_emptyDict, List.cons_append, List.append_assoc]
      exact (readValue_dict limit _).trans (openWith_blank (by decide) gap rest)
  | dict gap pairs ih =>
      obtain ⟨limit, rfl⟩ := Nat.exists_eq_succ_of_ne_zero (Nat.ne_zero_of_lt hdepth)
      have hpairs : readFields limit (pairs.text ++ rest) = .ok (pairs.decode, rest) :=
        ih limit (Nat.le_of_succ_le_succ hdepth) hrest
      rw [Layout.text_dict, List.cons_append, List.append_assoc]
      exact (readValue_dict limit _).trans (openWith_text pairs (Or.inr rfl) gap hpairs)
  | lastItem first gap ih =>
      have hitem : readValue limit (first.text ++ (gap.val ++ ofChar ']' :: rest)) =
          .ok (first.decode, gap.val ++ ofChar ']' :: rest) :=
        ih limit hdepth (delimited_gap gap (by decide) rest)
      rw [Layout.text_lastItem, List.append_assoc, List.append_assoc, List.singleton_append]
      refine (readItems_eq limit _).trans ?_
      rw [hitem]
      exact continueWith_last (by decide) _ gap rest
  | item first gap next items ihFirst ihRest =>
      have hitems : readItems limit (items.text ++ rest) = .ok (items.decode, rest) :=
        ihRest limit ((le_max_right _ _).trans hdepth) hrest
      have hcomma : isBreak (ofChar ',') = true := by decide
      have hitem := ihFirst limit ((le_max_left _ _).trans hdepth)
        (delimited_gap gap hcomma (next.val ++ (items.text ++ rest)))
      rw [Layout.text_item]
      simp only [List.append_assoc, List.cons_append]
      refine (readItems_eq limit _).trans ?_
      rw [show readValue limit _ = _ from hitem]
      exact continueWith_text items (by decide) _ gap next hitems
  | field key gap next nested ih =>
      have hvalue : readValue limit (nested.text ++ rest) = .ok (nested.decode, rest) :=
        ih limit hdepth hrest
      rw [Layout.text_field]
      simp only [List.append_assoc, List.cons_append]
      refine (readField_eq limit key gap _).trans ?_
      rw [skipPoints_blank, nested.skipPoints_text_append, hvalue]
      rfl
  | lastField first gap ih =>
      have hfield : readField limit (first.text ++ (gap.val ++ ofChar '\x7d' :: rest)) =
          .ok (first.decode, gap.val ++ ofChar '\x7d' :: rest) :=
        ih limit hdepth (delimited_gap gap (by decide) rest)
      rw [Layout.text_lastField, List.append_assoc, List.append_assoc, List.singleton_append]
      refine (readFields_eq limit _).trans ?_
      rw [hfield]
      exact continueWith_last (by decide) _ gap rest
  | fields first gap next pairs ihFirst ihRest =>
      have hpairs : readFields limit (pairs.text ++ rest) = .ok (pairs.decode, rest) :=
        ihRest limit ((le_max_right _ _).trans hdepth) hrest
      have hcomma : isBreak (ofChar ',') = true := by decide
      have hfield := ihFirst limit ((le_max_left _ _).trans hdepth)
        (delimited_gap gap hcomma (next.val ++ (pairs.text ++ rest)))
      rw [Layout.text_fields]
      simp only [List.append_assoc, List.cons_append]
      refine (readFields_eq limit _).trans ?_
      rw [show readField limit _ = _ from hfield]
      exact continueWith_text pairs (by decide) _ gap next hpairs

/-! ## Reading a part of a layout -/

theorem cutsInteger_append (length : ℕ) (first rest : List Token) :
    cutsInteger length (first ++ rest) =
      (cutsInteger length first || cutsInteger (length - (textOf first).length) rest) := by
  induction first generalizing length with
  | nil => rfl
  | cons token first ih =>
      rw [List.cons_append, cutsInteger, cutsInteger, ih, Bool.or_assoc,
        Layout.textOf_cons, List.length_append, Nat.sub_sub]

/-- A cut behind the last token leaves every integer as it is. -/
theorem cutsInteger_of_le {length : ℕ} {tokens : List Token}
    (hlength : (textOf tokens).length ≤ length) : cutsInteger length tokens = false := by
  induction tokens generalizing length with
  | nil => rfl
  | cons token rest ih =>
      rw [Layout.textOf_cons, List.length_append] at hlength
      have htoken : token.cutsInteger length = false := by
        cases token with
        | mark => rfl
        | word scalar =>
            have hwhole : scalar.text.take length = scalar.text :=
              List.take_of_length_le (Nat.le_of_add_right_le hlength)
            rw [Token.cutsInteger, hwhole, scalar.startsLongInteger_text]
      rw [cutsInteger, htoken, Bool.false_or]
      exact ih (Nat.le_sub_of_add_le' hlength)

theorem cutsInteger_zero (tokens : List Token) : cutsInteger 0 tokens = false := by
  induction tokens with
  | nil => rfl
  | cons token rest ih =>
      rw [cutsInteger, Nat.zero_sub, ih, Bool.or_false]
      cases token <;> rfl

/-- How the decoder refuses a document that was cut. -/
def cutError (length : ℕ) (tokens : List Token) : LoadsError :=
  if cutsInteger length tokens then .intDigits else .jsonDecode

theorem cutError_zero (tokens : List Token) : cutError 0 tokens = .jsonDecode := by
  rw [cutError, cutsInteger_zero]
  rfl

/-- A part that ends with a constant or a number, of which a piece can be one too. -/
def Layout.endsScalar : {part : Part} → Layout part → Bool
  | _, .scalar _ => true
  | _, .field _ _ _ nested => nested.endsScalar
  | _, _ => false

/-- What the decoder makes of a part that was cut. -/
def Torn {part : Part} (layout : Layout part) (limit length : ℕ) : Prop :=
  part.read limit (layout.text.take length) = .error (cutError length layout.tokens) ∨
    layout.endsScalar = true ∧ cutsInteger length layout.tokens = false ∧
      ∃ result rest, part.read limit (layout.text.take length) = .ok (result, rest) ∧
        ∀ point ∈ rest, isBreak point = false

omit [PyRuntime] in
theorem skipPoints_take_blank (gap : Gap) (text : PyStr) (length : ℕ) :
    skipPoints ((gap.val ++ text).take length) =
      skipPoints (text.take (length - gap.val.length)) := by
  have htaken : (gap.val.take length).all isSpacePoint = true :=
    List.all_eq_true.mpr fun point hpoint =>
      List.all_eq_true.mp gap.property point (List.mem_of_mem_take hpoint)
  rw [List.take_append]
  exact skipPoints_blank ⟨_, htaken⟩ _

theorem skipPoints_take_text {part : Part} (layout : Layout part) (length : ℕ) :
    skipPoints (layout.text.take length) = layout.text.take length := by
  obtain ⟨point, tail, htext, hspace, -⟩ := layout.exists_text_eq
  cases length with
  | zero => rfl
  | succ length =>
      rw [htext, List.take_succ_cons, skipPoints_cons hspace]

section Elements

variable {Element : Type} {close : Char}
  {more : PyStr → Except LoadsError (List Element × PyStr)} {build : List Element → Json}

theorem openWith_take {part : Part} (layout : Layout part)
    (hclose : close = ']' ∨ close = '\x7d') (hnil : more [] = .error .jsonDecode)
    (gap : Gap) (length : ℕ) {error : LoadsError}
    (hmore : more (layout.text.take (length - gap.val.length)) = .error error) :
    openWith close more build ((gap.val ++ layout.text).take length) = .error error := by
  have hskip := skipPoints_take_blank gap layout.text length
  rw [skipPoints_take_text] at hskip
  obtain ⟨point, tail, htext, -, hbracket, hbrace⟩ := layout.exists_text_eq
  have hother : point ≠ ofChar close := by
    rcases hclose with rfl | rfl
    · exact hbracket
    · exact hbrace
  rcases hrest : length - gap.val.length with _ | rest
  · rw [hrest, List.take_zero] at hskip hmore
    obtain rfl := Except.error.inj (hnil.symm.trans hmore)
    exact openWith_of_nil hskip
  · rw [htext] at hskip hmore ⊢
    rw [hrest, List.take_succ_cons] at hskip hmore
    rw [openWith_of_other hskip hother, hmore]
    rfl

/-- After an element: a cut before the next one, or within the others. -/
theorem continueWith_take {part : Part} (layout : Layout part) (hclose : close ≠ ',')
    (hnil : more [] = .error .jsonDecode) (element : Element) (gap next : Gap) (length : ℕ)
    {error : LoadsError}
    (hmore : more (layout.text.take (length - gap.val.length - 1 - next.val.length)) =
      .error error) :
    continueWith close more element
        ((gap.val ++ ofChar ',' :: (next.val ++ layout.text)).take length) =
      .error error := by
  have hskip := skipPoints_take_blank gap (ofChar ',' :: (next.val ++ layout.text)) length
  rcases hrest : length - gap.val.length with _ | rest
  · simp only [hrest, Nat.zero_sub, List.take_zero] at hmore
    rw [hrest, List.take_zero] at hskip
    obtain rfl := Except.error.inj (hnil.symm.trans hmore)
    exact continueWith_of_nil element hskip
  · rw [hrest, Nat.add_sub_cancel] at hmore
    rw [hrest, List.take_succ_cons, skipPoints_cons (by decide)] at hskip
    rw [continueWith_of_comma element hclose hskip, skipPoints_take_blank,
      skipPoints_take_text, hmore]
    rfl

omit [PyRuntime] in
/-- After an element: a cut before the closing bracket. -/
theorem continueWith_take_blank (element : Element) (gap : Gap) {mark : CodePoint}
    {length : ℕ} (hlength : length ≤ gap.val.length) :
    continueWith close more element ((gap.val ++ [mark]).take length) = .error .jsonDecode := by
  have hskip := skipPoints_take_blank gap [mark] length
  rw [Nat.sub_eq_zero_of_le hlength, List.take_zero] at hskip
  exact continueWith_of_nil element hskip

omit [PyRuntime] in
/-- After an element: a rest in which no token starts. -/
theorem continueWith_unbroken (hclose : isBreak (ofChar close) = true) (element : Element)
    {text : PyStr} (htext : ∀ point ∈ text, isBreak point = false) :
    continueWith close more element text = .error .jsonDecode := by
  cases text with
  | nil => exact continueWith_of_nil element rfl
  | cons point rest =>
      have hpoint := htext point List.mem_cons_self
      have hskip := skipPoints_cons (isSpacePoint_of_isBreak_eq_false hpoint) rest
      apply continueWith_of_other element hskip
      · rintro rfl
        rw [hclose] at hpoint
        cases hpoint
      · rintro rfl
        exact absurd hpoint (by decide)

end Elements

omit [PyRuntime] in
theorem delimited_take {text : PyStr} (htext : Delimited text) (length : ℕ) :
    Delimited (text.take length) := by
  cases text with
  | nil =>
      rw [List.take_nil]
      exact delimited_nil
  | cons point rest =>
      cases length with
      | zero => exact delimited_nil
      | succ length => exact delimited_cons.mpr (delimited_cons.mp htext)

theorem cutError_of_le {length : ℕ} {first : List Token} (rest : List Token)
    (hlength : length ≤ (textOf first).length) :
    cutError length (first ++ rest) = cutError length first := by
  rw [cutError, cutsInteger_append, Nat.sub_eq_zero_of_le hlength, cutsInteger_zero,
    Bool.or_false]
  rfl

theorem cutError_of_ge {length : ℕ} {first : List Token} (rest : List Token)
    (hlength : (textOf first).length ≤ length) :
    cutError length (first ++ rest) = cutError (length - (textOf first).length) rest := by
  rw [cutError, cutsInteger_append, cutsInteger_of_le hlength, Bool.false_or]
  rfl

theorem cutError_mark (length : ℕ) (text : PyStr) (rest : List Token) :
    cutError length (.mark text :: rest) = cutError (length - text.length) rest :=
  rfl

omit [PyRuntime] in
theorem take_append_of_ge {first : PyStr} (rest : PyStr) {length : ℕ}
    (hlength : first.length ≤ length) :
    (first ++ rest).take length = first ++ rest.take (length - first.length) := by
  rw [List.take_append, List.take_of_length_le hlength]

/-- An element that was cut ends the reading. -/
theorem bind_continueWith_take {part : Part} {first : Layout part} {limit length : ℕ}
    (htorn : Torn first limit length) {close : Char} (hclose : isBreak (ofChar close) = true)
    (more : PyStr → Except LoadsError (List part.Result × PyStr)) :
    ((part.read limit (first.text.take length)).bind fun scanned =>
        continueWith close more scanned.1 scanned.2) =
      .error (cutError length first.tokens) := by
  rcases htorn with herror | ⟨-, hcut, result, rest, hread, hrest⟩
  · rw [herror]
    rfl
  · rw [hread, cutError, hcut]
    exact continueWith_unbroken hclose result hrest

theorem bind_continueWith_text {part : Part} (first : Layout part) {limit : ℕ}
    (hdepth : first.depth ≤ limit) {tail : PyStr} (htail : Delimited tail) (close : Char)
    (more : PyStr → Except LoadsError (List part.Result × PyStr)) :
    ((part.read limit (first.text ++ tail)).bind fun scanned =>
        continueWith close more scanned.1 scanned.2) =
      continueWith close more first.decode tail := by
  rw [read_text first limit hdepth htail]
  rfl

/-- A cut before or in the closing bracket. -/
theorem bind_continueWith_take_blank {part : Part} {first : Layout part} {limit length : ℕ}
    (hdepth : first.depth ≤ limit) {close : Char} (hclose : isBreak (ofChar close) = true)
    (more : PyStr → Except LoadsError (List part.Result × PyStr)) (gap : Gap)
    (htorn : length < first.text.length → Torn first limit length)
    (hlength : length < (first.text ++ (gap.val ++ [ofChar close])).length) :
    ((part.read limit ((first.text ++ (gap.val ++ [ofChar close])).take length)).bind
        fun scanned => continueWith close more scanned.1 scanned.2) =
      .error (cutError length (first.tokens ++ [.mark (gap.val ++ [ofChar close])])) := by
  rcases Nat.lt_or_ge length first.text.length with hcut | hwhole
  · rw [List.take_append_of_le_length hcut.le, cutError_of_le _ hcut.le]
    exact bind_continueWith_take (htorn hcut) hclose more
  · have hgap : length - first.text.length ≤ gap.val.length := by
      simp only [List.length_append, List.length_singleton] at hlength
      omega
    rw [take_append_of_ge _ hwhole, cutError_of_ge _ hwhole]
    refine (bind_continueWith_text first hdepth
      (delimited_take (delimited_gap gap hclose []) _) close more).trans ?_
    exact continueWith_take_blank first.decode gap hgap

/-- A cut before or in the elements that follow. -/
theorem bind_continueWith_take_more {part parts : Part} {first : Layout part}
    {rest : Layout parts} {limit length : ℕ} (hdepth : first.depth ≤ limit) {close : Char}
    (hclose : isBreak (ofChar close) = true) (hcomma : close ≠ ',')
    {more : PyStr → Except LoadsError (List part.Result × PyStr)}
    (hnil : more [] = .error .jsonDecode) (gap next : Gap)
    (htorn : length < first.text.length → Torn first limit length)
    (hmore : ∀ reach < rest.text.length,
      more (rest.text.take reach) = .error (cutError reach rest.tokens))
    (hlength : length < (first.text ++ (gap.val ++ ofChar ',' ::
      (next.val ++ rest.text))).length) :
    ((part.read limit ((first.text ++ (gap.val ++ ofChar ',' ::
        (next.val ++ rest.text))).take length)).bind
        fun scanned => continueWith close more scanned.1 scanned.2) =
      .error (cutError length
        (first.tokens ++ .mark (gap.val ++ ofChar ',' :: next.val) :: rest.tokens)) := by
  rcases Nat.lt_or_ge length first.text.length with hcut | hwhole
  · rw [List.take_append_of_le_length hcut.le, cutError_of_le _ hcut.le]
    exact bind_continueWith_take (htorn hcut) hclose more
  · have hreach : length - first.text.length - gap.val.length - 1 - next.val.length <
        rest.text.length := by
      simp only [List.length_append, List.length_cons] at hlength
      obtain ⟨point, tail, htext, -⟩ := rest.exists_text_eq
      rw [htext, List.length_cons] at hlength ⊢
      omega
    have hmark : cutError (length - first.text.length)
        (.mark (gap.val ++ ofChar ',' :: next.val) :: rest.tokens) =
        cutError (length - first.text.length - gap.val.length - 1 - next.val.length)
          rest.tokens := by
      rw [cutError_mark]
      congr 1
      simp only [List.length_append, List.length_cons]
      omega
    have hbreak : isBreak (ofChar ',') = true := by decide
    rw [take_append_of_ge _ hwhole, cutError_of_ge _ hwhole]
    refine (bind_continueWith_text first hdepth
      (delimited_take (delimited_gap gap hbreak _) _) close more).trans ?_
    exact (continueWith_take rest hcomma hnil first.decode gap next _
      (hmore _ hreach)).trans (congrArg Except.error hmark.symm)

/-- A cut field is read as far as its value is. -/
theorem readField_take (limit : ℕ) (key : Literal) (gap next : Gap) (nested : Layout .value)
    (length : ℕ) :
    readField limit ((Layout.field key gap next nested).text.take length) =
      (readValue limit (nested.text.take
        (length - (key.text ++ gap.val ++ ofChar ':' :: next.val).length))).map fun scanned =>
          ((key.value, scanned.1), scanned.2) := by
  have hmark : (key.text ++ gap.val ++ ofChar ':' :: next.val).length =
      key.inner.length + gap.val.length + next.val.length + 3 := by
    simp only [Literal.text, List.length_append, List.length_cons, List.length_nil]
    omega
  rw [Layout.text_field, hmark]
  cases length with
  | zero =>
      rw [Nat.zero_sub, List.take_zero, List.take_zero, readValue_nil]
      rfl
  | succ length =>
      rw [List.take_succ_cons, readField, if_neg (not_not_intro rfl)]
      rcases Nat.lt_or_ge key.inner.length length with hclosed | hopen
      · obtain ⟨rest, rfl⟩ := Nat.exists_eq_add_of_lt hclosed
        have hrest : key.inner.length + rest + 1 - key.inner.length = rest + 1 := by omega
        have hvalue : key.inner.length + rest + 1 + 1 -
            (key.inner.length + gap.val.length + next.val.length + 3) =
              rest - gap.val.length - 1 - next.val.length := by omega
        have hskip := skipPoints_take_blank gap (ofChar ':' :: (next.val ++ nested.text)) rest
        rw [take_append_of_ge _ (by omega), hrest, List.take_succ_cons, key.readString_eq,
          hvalue]
        simp only [bind, Except.bind, hskip]
        rcases hcolon : rest - gap.val.length with _ | reach
        · simp only [List.take_zero, Nat.zero_sub, readValue_nil]
          rfl
        · have hspace : isSpacePoint (ofChar ':') = false := by decide
          rw [List.take_succ_cons, skipPoints_cons hspace, Nat.add_sub_cancel]
          simp only [if_pos, skipPoints_take_blank, skipPoints_take_text]
          rcases readValue limit (nested.text.take (reach - next.val.length)) with
            error | scanned <;> rfl
      · have hvalue : length + 1 -
            (key.inner.length + gap.val.length + next.val.length + 3) = 0 := by omega
        have hstring := key.readString_take hopen
        rw [List.take_append_of_le_length hopen] at hstring
        rw [List.take_append_of_le_length hopen, hvalue, List.take_zero, readValue_nil, hstring]
        rfl

theorem endsScalar_items (items : Layout .items) : items.endsScalar = false := by
  cases items <;> rfl

theorem endsScalar_fields (pairs : Layout .fields) : pairs.endsScalar = false := by
  cases pairs <;> rfl

theorem Torn.error {part : Part} {layout : Layout part} {limit length : ℕ}
    (htorn : Torn layout limit length) (hends : layout.endsScalar = false) :
    part.read limit (layout.text.take length) = .error (cutError length layout.tokens) := by
  rcases htorn with herror | ⟨hscalar, -⟩
  · exact herror
  · rw [hends] at hscalar
    cases hscalar

theorem torn_scalar (word : Scalar) (limit length : ℕ) :
    Torn (.scalar word) limit length := by
  have hcut : cutsInteger length [.word word] =
      startsLongInteger ((word.text.take length).map asciiChar) := Bool.or_false _
  rw [Torn, Layout.text_scalar, Layout.tokens, cutError, hcut]
  rcases htake : word.text.take length with _ | ⟨point, rest⟩
  · exact Or.inl (readValue_nil limit)
  · have hpoint : isBreak point = false :=
      word.unbroken point (List.mem_of_mem_take (htake ▸ List.mem_cons_self))
    have hread : readValue limit (point :: rest) = readScalar (point :: rest) :=
      readValue_scalar limit hpoint rest
    have hpiece := word.readScalar_take length
    rw [htake, ← hread] at hpiece
    rcases hpiece with herror | ⟨hshort, hpart⟩
    · exact Or.inl herror
    · exact Or.inr ⟨rfl, hshort, hpart⟩

omit [PyRuntime] in
/-- An empty container that was cut. -/
theorem openWith_take_blank {Element : Type} {close : Char}
    {more : PyStr → Except LoadsError (List Element × PyStr)} {build : List Element → Json}
    (gap : Gap) {mark : CodePoint} {length : ℕ} (hlength : length ≤ gap.val.length) :
    openWith close more build ((gap.val ++ [mark]).take length) = .error .jsonDecode := by
  have hskip := skipPoints_take_blank gap [mark] length
  rw [Nat.sub_eq_zero_of_le hlength, List.take_zero] at hskip
  exact openWith_of_nil hskip

/-- A document that was cut before its end is refused, or was a constant or a number. -/
theorem torn {part : Part} (layout : Layout part) (limit : ℕ) (hdepth : layout.depth ≤ limit)
    {length : ℕ} (hlength : length < layout.text.length) : Torn layout limit length := by
  induction layout generalizing limit length with
  | scalar word => exact torn_scalar word limit length
  | string literal =>
      left
      rw [Layout.text_string, Literal.text, List.cons_append] at hlength ⊢
      cases length with
      | zero => exact readValue_nil limit
      | succ length =>
          have hinner : length ≤ literal.inner.length := by
            simp only [List.length_cons, List.length_append, List.length_nil] at hlength
            omega
          rw [List.take_succ_cons]
          refine (readValue_string limit _).trans ?_
          rw [literal.readString_take hinner]
          rfl
  | emptyList gap =>
      left
      obtain ⟨limit, rfl⟩ := Nat.exists_eq_add_of_le' hdepth
      rw [Layout.text_emptyList] at hlength ⊢
      cases length with
      | zero => exact readValue_nil _
      | succ length =>
          have hgap : length ≤ gap.val.length := by
            simp only [List.length_cons, List.length_append, List.length_nil] at hlength
            omega
          exact (readValue_list limit _).trans (openWith_take_blank gap hgap)
  | list gap items ih =>
      left
      obtain ⟨limit, rfl⟩ := Nat.exists_eq_succ_of_ne_zero (Nat.ne_zero_of_lt hdepth)
      rw [Layout.text_list] at hlength ⊢
      cases length with
      | zero => exact (readValue_nil _).trans (by rw [cutError_zero]; rfl)
      | succ length =>
          have hreach : length - gap.val.length < items.text.length := by
            obtain ⟨point, tail, htext, -⟩ := items.exists_text_eq
            simp only [htext, List.length_cons, List.length_append] at hlength ⊢
            omega
          have hitems := (ih limit (Nat.le_of_succ_le_succ hdepth) hreach).error
            (endsScalar_items items)
          have hmark := cutError_mark (length + 1) (ofChar '[' :: gap.val) items.tokens
          rw [List.length_cons, Nat.add_sub_add_right] at hmark
          rw [Layout.tokens, hmark]
          exact (readValue_list limit _).trans
            (openWith_take items (Or.inl rfl) (readItems_nil limit) gap length hitems)
  | emptyDict gap =>
      left
      obtain ⟨limit, rfl⟩ := Nat.exists_eq_add_of_le' hdepth
      rw [Layout.text_emptyDict] at hlength ⊢
      cases length with
      | zero => exact readValue_nil _
      | succ length =>
          have hgap : length ≤ gap.val.length := by
            simp only [List.length_cons, List.length_append, List.length_nil] at hlength
            omega
          exact (readValue_dict limit _).trans (openWith_take_blank gap hgap)
  | dict gap pairs ih =>
      left
      obtain ⟨limit, rfl⟩ := Nat.exists_eq_succ_of_ne_zero (Nat.ne_zero_of_lt hdepth)
      rw [Layout.text_dict] at hlength ⊢
      cases length with
      | zero => exact (readValue_nil _).trans (by rw [cutError_zero]; rfl)
      | succ length =>
          have hreach : length - gap.val.length < pairs.text.length := by
            obtain ⟨point, tail, htext, -⟩ := pairs.exists_text_eq
            simp only [htext, List.length_cons, List.length_append] at hlength ⊢
            omega
          have hpairs := (ih limit (Nat.le_of_succ_le_succ hdepth) hreach).error
            (endsScalar_fields pairs)
          have hmark := cutError_mark (length + 1) (ofChar '\x7b' :: gap.val) pairs.tokens
          rw [List.length_cons, Nat.add_sub_add_right] at hmark
          rw [Layout.tokens, hmark]
          exact (readValue_dict limit _).trans
            (openWith_take pairs (Or.inr rfl) (readFields_nil limit) gap length hpairs)
  | lastItem first gap ih =>
      have hfirst : first.depth ≤ limit := hdepth
      have hclose : isBreak (ofChar ']') = true := by decide
      left
      rw [Layout.text_lastItem] at hlength ⊢
      exact (readItems_eq limit _).trans
        (bind_continueWith_take_blank hfirst hclose _ gap (ih limit hdepth) hlength)
  | item first gap next items ihFirst ihRest =>
      have hfirst := (le_max_left _ _).trans hdepth
      have hrest := (le_max_right _ _).trans hdepth
      have hclose : isBreak (ofChar ']') = true := by decide
      left
      rw [Layout.text_item] at hlength ⊢
      refine (readItems_eq limit _).trans (bind_continueWith_take_more hfirst hclose
        (by decide) (readItems_nil limit) gap next (ihFirst limit hfirst) ?_ hlength)
      exact fun reach hreach => (ihRest limit hrest hreach).error (endsScalar_items items)
  | field key gap next nested ih =>
      set mark := key.text ++ gap.val ++ ofChar ':' :: next.val
      have hread : Part.field.read limit _ = _ := readField_take limit key gap next nested length
      have hreach : length - mark.length < nested.text.length := by
        have htext : (Layout.field key gap next nested).text = mark ++ nested.text := rfl
        obtain ⟨point, tail, hnested, -⟩ := nested.exists_text_eq
        rw [htext, List.length_append, hnested, List.length_cons] at hlength
        rw [hnested, List.length_cons]
        omega
      have hcut : cutsInteger length (Layout.field key gap next nested).tokens =
          cutsInteger (length - mark.length) nested.tokens := rfl
      rw [Torn, hread, cutError, hcut]
      rcases ih limit hdepth hreach with herror | ⟨hends, hshort, result, rest, hpart, hrest⟩
      · left
        rw [show readValue limit _ = _ from herror]
        rfl
      · refine Or.inr ⟨hends, hshort, (key.value, result), rest, ?_, hrest⟩
        rw [show readValue limit _ = _ from hpart]
        rfl
  | lastField first gap ih =>
      have hfirst : first.depth ≤ limit := hdepth
      have hclose : isBreak (ofChar '\x7d') = true := by decide
      left
      rw [Layout.text_lastField] at hlength ⊢
      exact (readFields_eq limit _).trans
        (bind_continueWith_take_blank hfirst hclose _ gap (ih limit hdepth) hlength)
  | fields first gap next pairs ihFirst ihRest =>
      have hfirst := (le_max_left _ _).trans hdepth
      have hrest := (le_max_right _ _).trans hdepth
      have hclose : isBreak (ofChar '\x7d') = true := by decide
      left
      rw [Layout.text_fields] at hlength ⊢
      refine (readFields_eq limit _).trans (bind_continueWith_take_more hfirst hclose
        (by decide) (readFields_nil limit) gap next (ihFirst limit hfirst) ?_ hlength)
      exact fun reach hreach => (ihRest limit hrest hreach).error (endsScalar_fields pairs)

end Tokens

end SsfTransmitter.Python
