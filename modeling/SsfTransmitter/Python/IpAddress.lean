import Mathlib.Data.BitVec
import Mathlib.Tactic.Common

/-!
# IP addresses and networks

The part of Python's `ipaddress` that the receiver checks use: addresses read
from text, and membership in a network.
-/

namespace SsfTransmitter.Python

/-- `IPv4Address` and `IPv6Address`; a scope id plays no part in membership. -/
inductive IpAddress where
  | v4 (value : BitVec 32)
  | v6 (value : BitVec 128)
  deriving DecidableEq

/-- The value of a digit. -/
def digitValue? (char : Char) : Option ℕ :=
  if '0' ≤ char ∧ char ≤ '9' then some (char.toNat - '0'.toNat)
  else if 'a' ≤ char ∧ char ≤ 'f' then some (char.toNat - 'a'.toNat + 10)
  else if 'A' ≤ char ∧ char ≤ 'F' then some (char.toNat - 'A'.toNat + 10)
  else none

/-- `int(text, base)` for plain digits. -/
def readDigits (base : ℕ) (text : List Char) : Option ℕ :=
  if text = [] then none
  else text.foldlM (fun value char => do
    let digit ← digitValue? char
    if digit < base then some (value * base + digit) else none) 0

/-- `_parse_octet` -/
def parseOctet (text : List Char) : Option ℕ :=
  if 3 < text.length then none
  else if text ≠ ['0'] ∧ text.head? = some '0' then none
  else (readDigits 10 text).filter (· ≤ 255)

/-- `_parse_hextet` -/
def parseHextet (text : List Char) : Option ℕ :=
  if 4 < text.length then none else readDigits 16 text

/-- The number that digits of a base write. -/
def ofGroups (base : ℕ) (groups : List ℕ) : ℕ :=
  groups.foldl (fun value group => value * base + group) 0

/-- `IPv4Address(text)` -/
def ipv4Address (text : List Char) : Option (BitVec 32) :=
  let octets := text.splitOn '.'
  if octets.length = 4 then
    (octets.mapM parseOctet).map fun values => BitVec.ofNat 32 (ofGroups 256 values)
  else none

/-- The hextets on one side of a `::`; an empty one only stands at the very end of
the text, where it belongs to the `::`. -/
def besideGap (outer : Option (List Char)) (side : List (List Char)) :
    Option (List (List Char)) :=
  if outer = some [] then (if side.length = 1 then some [] else none) else some side

/-- The eight hextets of an address, with those that a `::` stands for. -/
def fillGap (parts : List (List Char)) : Option (List (List Char)) :=
  let gaps := (List.range parts.length).filter fun index =>
    0 < index ∧ index + 1 < parts.length ∧ parts[index]? = some []
  match gaps with
  | [] => if parts.length = 8 ∧ parts.head? ≠ some [] ∧ parts.getLast? ≠ some [] then
      some parts
    else none
  | [gap] => do
    let high ← besideGap parts.head? (parts.take gap)
    let low ← besideGap parts.getLast? (parts.drop (gap + 1))
    if high.length + low.length < 8 then
      some (high ++ List.replicate (8 - (high.length + low.length)) ['0'] ++ low)
    else none
  | _ => none

/-- `_ip_int_from_string` of `IPv6Address`. -/
def ipv6Value (text : List Char) : Option (BitVec 128) := do
  let parts := text.splitOn ':'
  let values ← if parts.length < 3 then none
    else match parts.getLast? with
      | some last =>
        -- an IPv4 suffix stands for the last two hextets
        if '.' ∈ last then do
          let suffix ← ipv4Address last
          let front ← fillGap (parts.dropLast ++ [['0'], ['0']])
          let values ← front.mapM parseHextet
          some (values.take 6 ++ [suffix.toNat / 65536, suffix.toNat % 65536])
        else (fillGap parts).bind (·.mapM parseHextet)
      | none => none
  some (BitVec.ofNat 128 (ofGroups 65536 values))

/-- `IPv6Address(text)`, whose scope id follows a `%`. -/
def ipv6Address (text : List Char) : Option (BitVec 128) :=
  match text.splitOn '%' with
  | [address] => ipv6Value address
  | [address, scope] => if scope = [] then none else ipv6Value address
  | _ => none

/-- `ipaddress.ip_address(text)`, `none` for `ValueError`. -/
def ipAddress (text : String) : Option IpAddress :=
  if '/' ∈ text.toList then none
  else match ipv4Address text.toList with
    | some value => some (.v4 value)
    | none => (ipv6Address text.toList).map .v6

/-- `IPv4Network` and `IPv6Network`: the leading bits of its addresses. -/
structure IpNetwork where
  address : IpAddress
  prefixLength : ℕ
  deriving DecidableEq

/-- `ipaddress.ip_network(text)` -/
def ipNetwork (text : String) : Option IpNetwork :=
  match text.toList.splitOn '/' with
  | [address, length] => do
    let address ← ipAddress (String.ofList address)
    let length ← readDigits 10 length
    some ⟨address, length⟩
  | _ => none

/-- `address in network`; the versions have to agree. -/
def IpNetwork.contains (network : IpNetwork) : IpAddress → Bool
  | .v4 value =>
    match network.address with
    | .v4 start =>
      value >>> (32 - network.prefixLength) = start >>> (32 - network.prefixLength)
    | .v6 _ => false
  | .v6 value =>
    match network.address with
    | .v6 start =>
      value >>> (128 - network.prefixLength) = start >>> (128 - network.prefixLength)
    | .v4 _ => false

/-- `IPv6Address.ipv4_mapped` -/
def ipv4Mapped (value : BitVec 128) : Option (BitVec 32) :=
  if value >>> 32 = 0xFFFF#128 then some (value.setWidth 32) else none

/-- `IPv6Address.sixtofour` -/
def sixToFour (value : BitVec 128) : Option (BitVec 32) :=
  if value >>> 112 = 0x2002#128 then some ((value >>> 80).setWidth 32) else none

/-- The client of `IPv6Address.teredo`. -/
def teredoClient (value : BitVec 128) : Option (BitVec 32) :=
  if value >>> 96 = 0x20010000#128 then some ((~~~value).setWidth 32) else none

end SsfTransmitter.Python
