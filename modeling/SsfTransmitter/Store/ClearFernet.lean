import SsfTransmitter.Store.Encryption

/-!
# An instance of the encryption interface

Tokens of the shape that the code recognises, which spell the key and the
message in clear.  It shows that the interface has instances, and runs can be
evaluated with it.
-/

namespace SsfTransmitter.Store

/-- The two halves of a byte as characters. -/
def byteChars (byte : UInt8) : List Char :=
  [Char.ofNat (byte.toNat / 16), Char.ofNat (byte.toNat % 16)]

/-- The bytes that a list of halves spells. -/
def charsToBytes : List Char → Option (List UInt8)
  | [] => some []
  | [_] => none
  | high :: low :: rest =>
    if high.toNat < 16 ∧ low.toNat < 16 then
      (charsToBytes rest).map (UInt8.ofNat (high.toNat * 16 + low.toNat) :: ·)
    else none

private theorem toNat_ofNat_half {value : ℕ} (hvalue : value < 16) :
    (Char.ofNat value).toNat = value := by
  interval_cases value <;> rfl

private theorem byteChars_spell {high low : Char} (hhigh : high.toNat < 16)
    (hlow : low.toNat < 16) :
    byteChars (UInt8.ofNat (high.toNat * 16 + low.toNat)) = [high, low] := by
  have hbyte : (UInt8.ofNat (high.toNat * 16 + low.toNat)).toNat =
      high.toNat * 16 + low.toNat := by
    rw [UInt8.toNat_ofNat']
    omega
  rw [byteChars, hbyte]
  have hdiv : (high.toNat * 16 + low.toNat) / 16 = high.toNat := by omega
  have hmod : (high.toNat * 16 + low.toNat) % 16 = low.toNat := by omega
  rw [hdiv, hmod, Char.ofNat_toNat, Char.ofNat_toNat]

private theorem spell_byteChars (byte : UInt8) :
    UInt8.ofNat (byte.toNat / 16 * 16 + byte.toNat % 16) = byte := by
  rw [Nat.div_add_mod' byte.toNat 16, UInt8.ofNat_toNat]

theorem charsToBytes_eq_some_iff (chars : List Char) (bytes : List UInt8) :
    charsToBytes chars = some bytes ↔ chars = bytes.flatMap byteChars := by
  induction chars using charsToBytes.induct generalizing bytes with
  | case1 =>
      cases bytes with
      | nil => simp [charsToBytes]
      | cons byte bytes => simp [charsToBytes, byteChars]
  | case2 char =>
      cases bytes with
      | nil => simp [charsToBytes]
      | cons byte bytes => simp [charsToBytes, byteChars]
  | case3 high low rest hhalves ih =>
      rw [charsToBytes, if_pos hhalves]
      constructor
      · intro hsome
        obtain ⟨tail, htail, rfl⟩ := Option.map_eq_some_iff.mp hsome
        rw [List.flatMap_cons, byteChars_spell hhalves.1 hhalves.2,
          ← (ih tail).mp htail]
        rfl
      · intro hchars
        cases bytes with
        | nil => simp at hchars
        | cons byte bytes =>
            rw [List.flatMap_cons, byteChars] at hchars
            simp only [List.cons_append, List.nil_append, List.cons.injEq] at hchars
            obtain ⟨rfl, rfl, hrest⟩ := hchars
            have hbound := byte.toNat_lt
            rw [toNat_ofNat_half (by omega), toNat_ofNat_half (by omega),
              (ih bytes).mpr hrest, Option.map_some, spell_byteChars]
  | case4 high low rest hhalves =>
      rw [charsToBytes, if_neg hhalves]
      refine ⟨nofun, fun hchars => absurd ?_ hhalves⟩
      cases bytes with
      | nil => simp at hchars
      | cons byte bytes =>
          rw [List.flatMap_cons, byteChars] at hchars
          simp only [List.cons_append, List.nil_append, List.cons.injEq] at hchars
          obtain ⟨rfl, rfl, -⟩ := hchars
          have hbound := byte.toNat_lt
          rw [toNat_ofNat_half (by omega), toNat_ofNat_half (by omega)]
          omega

/-- The head of a token: the shape that the code looks for, then the key. -/
def clearHead (key : Bool) : List Char :=
  "gAAAA".toList ++ List.replicate 75 'A' ++ [if key then 'B' else 'A', 'A', 'A', 'A']

private theorem clearHead_injective : Function.Injective clearHead := by
  intro left right heq
  cases left <;> cases right <;> first | rfl | (revert heq; decide)

/-- The bytes after the head of a token. -/
def clearBytes (key : Bool) (blob : String) : Option (List UInt8) :=
  if clearHead key <+: blob.toList then
    charsToBytes (blob.toList.drop (clearHead key).length)
  else none

/-- Tokens that spell key and message in clear. -/
def clearFernet : Fernet Bool Unit where
  encrypt key _ message :=
    String.ofList (clearHead key ++ message.data.toList.flatMap byteChars)
  decrypt key blob := (clearBytes key blob).map fun bytes => ⟨bytes.toArray⟩
  decrypt_eq_some_iff key blob message := by
    rw [Option.map_eq_some_iff]
    constructor
    · rintro ⟨bytes, hbytes, rfl⟩
      rw [clearBytes] at hbytes
      split_ifs at hbytes with hhead
      obtain ⟨rest, hrest⟩ := hhead
      rw [← hrest, List.drop_left] at hbytes
      refine ⟨(), ?_⟩
      rw [← (charsToBytes_eq_some_iff _ _).mp hbytes, hrest, String.ofList_toList]
    · rintro ⟨-, rfl⟩
      refine ⟨message.data.toList, ?_, rfl⟩
      rw [clearBytes, String.toList_ofList, if_pos (List.prefix_append _ _),
        List.drop_left]
      exact (charsToBytes_eq_some_iff _ _).mpr rfl
  key_eq_of_encrypt_eq key key' _ _ message message' heq := by
    have hlists := String.ofList_inj.mp heq
    have hlength : (clearHead key).length = (clearHead key').length := by
      simp [clearHead]
    exact clearHead_injective (List.append_inj_left hlists hlength)

end SsfTransmitter.Store
