import SsfTransmitter.Outbox.Pusher

/-!
# IPv4 addresses inside IPv6 addresses

A receiver may be named by an IPv6 address that routers turn into an IPv4 address.
The blocklist treats both alike.
-/

namespace SsfTransmitter.Outbox

open SsfTransmitter.Python

/-- The IPv6 forms that embed an IPv4 address.  A value of 128 bits is written from its
most significant part on. -/
inductive Embeds (value : BitVec 128) (address : BitVec 32) : Prop where
  /-- `::ffff:0:0/96` -/
  | mapped (hvalue : value = 0xFFFF#96 ++ address)
  /-- `::/96` -/
  | compatible (hvalue : value = 0#96 ++ address)
  /-- `64:ff9b::/96` -/
  | nat64 (hvalue : value = 0x0064FF9B0000000000000000#96 ++ address)
  /-- `2002::/16`, with subnet and interface below the address -/
  | sixToFour (low : BitVec 80) (hvalue : value = 0x2002#16 ++ address ++ low)
  /-- `2001::/32`, with the bits of the client inverted -/
  | teredo (server : BitVec 32) (flags port : BitVec 16)
      (hvalue : value = 0x20010000#32 ++ server ++ flags ++ port ++ ~~~address)

/-- `fc00::/7`, `fe80::/10` and `ff00::/8`. -/
def ReservedPrefix (value : BitVec 128) : Prop :=
  value.extractLsb' 121 7 = 0b1111110#7 ∨ value.extractLsb' 118 10 = 0b1111111010#10 ∨
    value.extractLsb' 120 8 = 0xFF#8

/-! ## Prefixes as quotients -/

theorem toNat_append_eq {high low : ℕ} (left : BitVec high) (right : BitVec low) :
    (left ++ right).toNat = left.toNat * 2 ^ low + right.toNat := by
  rw [BitVec.toNat_append, ← Nat.shiftLeft_add_eq_or_of_lt right.isLt, Nat.shiftLeft_eq]

theorem ushiftRight_eq_iff {width : ℕ} (value target : BitVec width) (count : ℕ) :
    value >>> count = target ↔ value.toNat / 2 ^ count = target.toNat := by
  rw [← BitVec.toNat_inj, BitVec.toNat_ushiftRight, Nat.shiftRight_eq_div_pow]

theorem extractLsb'_eq_iff {width length : ℕ} (value : BitVec width) (start : ℕ)
    (target : BitVec length) :
    value.extractLsb' start length = target ↔
      value.toNat / 2 ^ start % 2 ^ length = target.toNat := by
  rw [← BitVec.toNat_inj, BitVec.extractLsb'_toNat, Nat.shiftRight_eq_div_pow]

theorem contains_v6_iff (start value : BitVec 128) (prefixLength : ℕ) :
    IpNetwork.contains ⟨.v6 start, prefixLength⟩ (.v6 value) = true ↔
      value.toNat / 2 ^ (128 - prefixLength) = start.toNat / 2 ^ (128 - prefixLength) := by
  simp only [IpNetwork.contains, decide_eq_true_eq, ushiftRight_eq_iff,
    BitVec.toNat_ushiftRight, Nat.shiftRight_eq_div_pow]

theorem ipv4EmbeddingNetworks_eq :
    ipv4EmbeddingNetworks = [⟨.v6 0#128, 96⟩,
      ⟨.v6 0x0064FF9B000000000000000000000000#128, 96⟩] := by
  decide +kernel

theorem blockedNetworks_eq :
    blockedNetworks = [⟨.v4 0x00000000#32, 8⟩, ⟨.v4 0x0A000000#32, 8⟩,
      ⟨.v4 0x64400000#32, 10⟩, ⟨.v4 0x7F000000#32, 8⟩, ⟨.v4 0xA9FE0000#32, 16⟩,
      ⟨.v4 0xAC100000#32, 12⟩, ⟨.v4 0xC0000000#32, 24⟩, ⟨.v4 0xC0000200#32, 24⟩,
      ⟨.v4 0xC0A80000#32, 16⟩, ⟨.v4 0xC6120000#32, 15⟩, ⟨.v4 0xC6336400#32, 24⟩,
      ⟨.v4 0xCB007100#32, 24⟩, ⟨.v4 0xE0000000#32, 4⟩, ⟨.v4 0xF0000000#32, 4⟩,
      ⟨.v4 0xFFFFFFFF#32, 32⟩, ⟨.v6 1#128, 128⟩,
      ⟨.v6 0xFC000000000000000000000000000000#128, 7⟩,
      ⟨.v6 0xFE800000000000000000000000000000#128, 10⟩,
      ⟨.v6 0xFF000000000000000000000000000000#128, 8⟩] := by
  decide +kernel

/-! ## Unwrapping -/

section Unwrapping

variable {value : BitVec 128} {address : BitVec 32}

theorem ipv4Mapped_eq_some_iff :
    ipv4Mapped value = some address ↔
      value.toNat / 2 ^ 32 = 0xFFFF ∧ value.toNat % 2 ^ 32 = address.toNat := by
  rw [ipv4Mapped, Option.ite_none_right_eq_some, Option.some_inj, ushiftRight_eq_iff,
    ← BitVec.toNat_inj, BitVec.toNat_setWidth]
  rfl

theorem sixToFour_eq_some_iff :
    sixToFour value = some address ↔
      value.toNat / 2 ^ 112 = 0x2002 ∧ value.toNat / 2 ^ 80 % 2 ^ 32 = address.toNat := by
  rw [sixToFour, Option.ite_none_right_eq_some, Option.some_inj, ushiftRight_eq_iff,
    ← BitVec.toNat_inj, BitVec.toNat_setWidth, BitVec.toNat_ushiftRight,
    Nat.shiftRight_eq_div_pow]
  rfl

theorem teredoClient_eq_some_iff :
    teredoClient value = some address ↔
      value.toNat / 2 ^ 96 = 0x20010000 ∧
        2 ^ 32 - 1 - value.toNat % 2 ^ 32 = address.toNat := by
  rw [teredoClient, Option.ite_none_right_eq_some, Option.some_inj, ushiftRight_eq_iff,
    ← BitVec.toNat_inj, BitVec.toNat_setWidth, BitVec.toNat_not]
  have hvalue := value.isLt
  refine and_congr Iff.rfl ?_
  omega

theorem embeds_iff :
    Embeds value address ↔ ipv4Mapped value = some address ∨
      sixToFour value = some address ∨ teredoClient value = some address ∨
        (value.toNat / 2 ^ 32 = 0 ∨ value.toNat / 2 ^ 32 = 0x0064FF9B0000000000000000) ∧
          value.toNat % 2 ^ 32 = address.toNat := by
  have hvalue := value.isLt
  have haddress := address.isLt
  rw [ipv4Mapped_eq_some_iff, sixToFour_eq_some_iff, teredoClient_eq_some_iff]
  constructor
  · rintro (hform | hform | hform | ⟨low, hform⟩ | ⟨server, flags, port, hform⟩)
    all_goals
      have hnat := congrArg BitVec.toNat hform
      simp only [toNat_append_eq, BitVec.toNat_ofNat, BitVec.toNat_not] at hnat
    · exact .inl (by omega)
    · exact .inr (.inr (.inr (by omega)))
    · exact .inr (.inr (.inr (by omega)))
    · have hlow := low.isLt
      exact .inr (.inl (by omega))
    · have hserver := server.isLt
      have hflags := flags.isLt
      have hport := port.isLt
      exact .inr (.inr (.inl (by omega)))
  · rintro (⟨hhigh, hlow⟩ | ⟨hhigh, hlow⟩ | ⟨hhigh, hlow⟩ | ⟨hhigh | hhigh, hlow⟩)
    · refine .mapped (BitVec.eq_of_toNat_eq ?_)
      simp only [toNat_append_eq, BitVec.toNat_ofNat]
      omega
    · refine .sixToFour (value.setWidth 80) (BitVec.eq_of_toNat_eq ?_)
      simp only [toNat_append_eq, BitVec.toNat_ofNat, BitVec.toNat_setWidth]
      omega
    · refine .teredo ((value >>> 64).setWidth 32) ((value >>> 48).setWidth 16)
        ((value >>> 32).setWidth 16) (BitVec.eq_of_toNat_eq ?_)
      simp only [toNat_append_eq, BitVec.toNat_ofNat, BitVec.toNat_setWidth, BitVec.toNat_not,
        BitVec.toNat_ushiftRight, Nat.shiftRight_eq_div_pow]
      omega
    · refine .compatible (BitVec.eq_of_toNat_eq ?_)
      simp only [toNat_append_eq, BitVec.toNat_ofNat]
      omega
    · refine .nat64 (BitVec.eq_of_toNat_eq ?_)
      simp only [toNat_append_eq, BitVec.toNat_ofNat]
      omega

theorem embedding_iff :
    ipv4EmbeddingNetworks.any (fun network => network.contains (.v6 value)) = true ↔
      value.toNat / 2 ^ 32 = 0 ∨ value.toNat / 2 ^ 32 = 0x0064FF9B0000000000000000 := by
  simp only [ipv4EmbeddingNetworks_eq, List.any_cons, List.any_nil, Bool.or_false,
    Bool.or_eq_true, contains_v6_iff]
  rfl

/-- What is looked at in place of an IPv6 address is the address that it embeds; the
prefixes of the forms exclude each other. -/
theorem embeddedIpv4_eq_some_iff : embeddedIpv4 value = some address ↔ Embeds value address := by
  rw [embeds_iff, embeddedIpv4]
  cases hmapped : ipv4Mapped value with
  | some found =>
      have hprefix := (ipv4Mapped_eq_some_iff.mp hmapped).1
      refine ⟨.inl, ?_⟩
      rintro (hfound | hfound | hfound | hfound)
      · exact hfound
      · have hother := (sixToFour_eq_some_iff.mp hfound).1
        omega
      · have hother := (teredoClient_eq_some_iff.mp hfound).1
        omega
      · omega
  | none =>
      cases hsixToFour : sixToFour value with
      | some found =>
          have hprefix := (sixToFour_eq_some_iff.mp hsixToFour).1
          refine ⟨fun hfound => .inr (.inl hfound), ?_⟩
          rintro (hfound | hfound | hfound | hfound)
          · cases hfound
          · exact hfound
          · have hother := (teredoClient_eq_some_iff.mp hfound).1
            omega
          · omega
      | none =>
          cases hteredo : teredoClient value with
          | some found =>
              have hprefix := (teredoClient_eq_some_iff.mp hteredo).1
              refine ⟨fun hfound => .inr (.inr (.inl hfound)), ?_⟩
              rintro (hfound | hfound | hfound | hfound)
              · cases hfound
              · cases hfound
              · exact hfound
              · omega
          | none =>
              simp only [Option.or_none, embedding_iff, Option.ite_none_right_eq_some,
                Option.some_inj, ← BitVec.toNat_inj (y := address), BitVec.toNat_setWidth,
                reduceCtorEq, false_or]

end Unwrapping

/-! ## The blocklist -/

theorem any_blockedNetworks_v6 (value : BitVec 128) :
    (blockedNetworks.any fun network => network.contains (.v6 value)) = true ↔
      value.toNat = 1 ∨ ReservedPrefix value := by
  have hvalue := value.isLt
  simp only [blockedNetworks_eq, List.any_cons, List.any_nil, Bool.or_false, Bool.or_eq_true,
    contains_v6_iff, ReservedPrefix, extractLsb'_eq_iff]
  simp only [IpNetwork.contains, Bool.false_eq_true, false_or, BitVec.toNat_ofNat]
  omega

theorem isBlockedIp_of_v4 {text : String} {address : BitVec 32}
    (htext : ipAddress text = some (.v4 address)) :
    isBlockedIp text = blockedNetworks.any fun network => network.contains (.v4 address) := by
  rw [isBlockedIp, htext]

theorem isBlockedIp_of_v6 {text : String} {value : BitVec 128}
    (htext : ipAddress text = some (.v6 value)) :
    isBlockedIp text = blockedNetworks.any fun network =>
      network.contains ((embeddedIpv4 value).elim (.v6 value) .v4) := by
  rw [isBlockedIp, htext]
  dsimp only
  cases embeddedIpv4 value <;> rfl

/-- An IPv6 address that embeds an IPv4 address is blocked as that address is, and any other
where it has a reserved prefix. -/
theorem isBlockedIp_embedded {text : String} {value : BitVec 128}
    (htext : ipAddress text = some (.v6 value)) :
    (∀ address host, Embeds value address → ipAddress host = some (.v4 address) →
      isBlockedIp text = isBlockedIp host) ∧
    ((∀ address, ¬ Embeds value address) →
      (isBlockedIp text = true ↔ ReservedPrefix value)) := by
  rw [isBlockedIp_of_v6 htext]
  constructor
  · intro address host hembeds hhost
    rw [isBlockedIp_of_v4 hhost, embeddedIpv4_eq_some_iff.mpr hembeds]
    rfl
  · intro hnone
    have hfound : embeddedIpv4 value = none := by
      rw [Option.eq_none_iff_forall_ne_some]
      exact fun address hfound => hnone address (embeddedIpv4_eq_some_iff.mp hfound)
    have hone : value.toNat ≠ 1 := by
      intro hone
      refine hnone 1#32 (.compatible (BitVec.eq_of_toNat_eq ?_))
      rw [hone]
      rfl
    rw [hfound]
    exact (any_blockedNetworks_v6 value).trans (or_iff_right hone)

/-- The address of a cloud's metadata service, mapped to IPv6. -/
theorem isBlockedIp_embedded_sample :
    isBlockedIp "::ffff:169.254.169.254" = isBlockedIp "169.254.169.254" ∧
      isBlockedIp "169.254.169.254" = true := by
  have htext : ipAddress "::ffff:169.254.169.254" = some (.v6 (0xFFFF#96 ++ 0xA9FEA9FE#32)) := by
    decide +kernel
  have hhost : ipAddress "169.254.169.254" = some (.v4 0xA9FEA9FE#32) := by decide +kernel
  exact ⟨(isBlockedIp_embedded htext).1 _ _ (.mapped rfl) hhost, by decide +kernel⟩

end SsfTransmitter.Outbox
