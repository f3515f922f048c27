import WebServer.Lib.Bits
import WebServer.Network.Address

/-!
# WebServer.Network.Cidr

Which addresses a range holds, bit by bit.

`contains` computes with masks and with the bytes of the addresses. In C++ a shift by the width of the
word or more, an index past the last byte and an iterator past the end are undefined;
`containsChecked` is the same code with `none` for each of these.

* `SamePrefix`: same family, same first bits.
* `containsChecked_eq`: for the prefixes that the parsers accept nothing undefined happens.
* `contains_iff`: then the range holds the addresses that share the prefix of its network.
-/

namespace WebServer
namespace Network

/-- The bits of an address in the order of the network. -/
def Address.bits : Address → List Bool
  | .v4 value => wordBits value.toBitVec
  | .v6 bytes _ => bytes.toList.flatMap fun b => wordBits b.toBitVec

/-- `32U` or `128U` -/
def Address.width (a : Address) : ℕ := if a.isV4 then 32 else 128

/-- The addresses are of one family and agree on their first `n` bits. -/
def SamePrefix (n : ℕ) (a b : Address) : Prop :=
  a.isV4 = b.isV4 ∧ a.bits.take n = b.bits.take n

instance (n : ℕ) (a b : Address) : Decidable (SamePrefix n a b) :=
  inferInstanceAs (Decidable (_ ∧ _))

theorem Address.length_bits (a : Address) : a.bits.length = a.width := by
  cases a with
  | v4 value => simp [Address.bits, Address.width, Address.isV4]
  | v6 bytes scope =>
    simp [Address.bits, Address.width, Address.isV4, List.length_flatMap]

/-! ## Operations that can be undefined -/

/-- `x << n` on `unsigned` -/
def shiftLeft (x n : UInt32) : Option UInt32 := if n < 32 then some (x <<< n) else none

/-- `std::equal(a.begin(), a.begin() + n, b.begin())` -/
def equalFront (n : ℕ) (a b : Vector UInt8 16) : Option Bool :=
  if n ≤ 16 then some (a.toList.take n == b.toList.take n) else none

def v4Mask (prefixLength : UInt32) : Option UInt32 :=
  if prefixLength = 0 then some 0 else shiftLeft 0xffffffff (32 - prefixLength)

def v6Mask (remaining : UInt32) : Option UInt8 := (shiftLeft 0xff (8 - remaining)).map (·.toUInt8)

/-- `contains` of `ClientIpResolver`, `none` where it is undefined. -/
def containsChecked (range : Range) (candidate : Address) : Option Bool :=
  match range.network, candidate with
  | .v4 network, .v4 address => do
    let mask ← v4Mask (UInt32.ofNat range.prefixLength)
    return network &&& mask == address &&& mask
  | .v6 network _, .v6 address _ => do
    let fullBytes := range.prefixLength / 8
    let remaining := range.prefixLength % 8
    if (← equalFront fullBytes network address) = false then return false
    if remaining = 0 then return true
    let mask ← v6Mask (UInt32.ofNat remaining)
    return (← network[fullBytes]?) &&& mask == (← address[fullBytes]?) &&& mask
  | _, _ => some false

/-! ## Accepted prefixes -/

theorem v4Mask_eq : ∀ n ≤ 32, v4Mask (UInt32.ofNat n) = some (.ofBitVec (highMask 32 n)) := by
  decide

theorem v6Mask_eq : ∀ r < 8, 0 < r → v6Mask (UInt32.ofNat r) = some (.ofBitVec (highMask 8 r)) := by
  decide

theorem contains_v4 (network address : UInt32) {n : ℕ} (h : n ≤ 32) :
    contains ⟨.v4 network, n⟩ (.v4 address) =
      (network &&& .ofBitVec (highMask 32 n) == address &&& .ofBitVec (highMask 32 n)) := by
  have hmask : ∀ n ≤ 32, (if n = 0 then 0 else (0xffffffff : UInt32) <<< UInt32.ofNat (32 - n)) =
      .ofBitVec (highMask 32 n) := by decide
  simp only [contains, hmask n h]

theorem contains_v6 (network address : Vector UInt8 16) (scope zone : UInt32) {q r : ℕ}
    (hr : r < 8) :
    contains ⟨.v6 network scope, q * 8 + r⟩ (.v6 address zone) =
      (network.toList.take q == address.toList.take q && (decide (r = 0) ||
        network.toList.getD q 0 &&& .ofBitVec (highMask 8 r) ==
          address.toList.getD q 0 &&& .ofBitVec (highMask 8 r))) := by
  have hmask : ∀ r < 8, 0 < r → (0xff : UInt8) <<< UInt8.ofNat (8 - r) =
      .ofBitVec (highMask 8 r) := by decide
  have hq : (q * 8 + r) / 8 = q := by omega
  have hmod : (q * 8 + r) % 8 = r := by omega
  simp only [contains, hq, hmod]
  by_cases hfront : network.toList.take q = address.toList.take q
  · by_cases h0 : r = 0
    · simp [hfront, h0]
    · simp [hfront, h0, hmask r hr (by omega)]
  · simp [hfront]

theorem containsChecked_eq {range : Range} (h : range.prefixLength ≤ range.network.width)
    (candidate : Address) :
    containsChecked range candidate = some (contains range candidate) := by
  obtain ⟨network, n⟩ := range
  cases network with
  | v4 network =>
    cases candidate with
    | v4 address =>
      rw [contains_v4 network address h]
      simp [containsChecked, v4Mask_eq n h]
    | v6 => rfl
  | v6 network scope =>
    cases candidate with
    | v4 => rfl
    | v6 address zone =>
      have hn : n ≤ 128 := h
      obtain ⟨q, r, hr, rfl⟩ : ∃ q r, r < 8 ∧ n = q * 8 + r :=
        ⟨n / 8, n % 8, Nat.mod_lt n (by omega), by omega⟩
      have hq : (q * 8 + r) / 8 = q := by omega
      have hmod : (q * 8 + r) % 8 = r := by omega
      rw [contains_v6 network address scope zone hr]
      simp only [containsChecked, equalFront, hq, hmod, if_pos (show q ≤ 16 by omega)]
      by_cases hfront : network.toList.take q = address.toList.take q
      · by_cases h0 : r = 0
        · simp [hfront, h0]
        · -- a byte with bits of the prefix in it is one of the sixteen
          have hlt : q < 16 := by omega
          simp [hfront, h0, v6Mask_eq r hr (by omega), hlt]
      · simp [hfront]

/-! ## The addresses of a range -/

theorem byteBits_injective : Function.Injective fun b : UInt8 => wordBits b.toBitVec :=
  fun _ _ h => UInt8.toBitVec_inj.mp (wordBits_injective h)

theorem contains_iff {range : Range} (h : range.prefixLength ≤ range.network.width)
    (candidate : Address) :
    contains range candidate = true ↔
      SamePrefix range.prefixLength range.network candidate := by
  obtain ⟨network, n⟩ := range
  cases network with
  | v4 network =>
    cases candidate with
    | v4 address =>
      rw [contains_v4 network address h, beq_iff_eq, ← UInt32.toBitVec_inj]
      simp only [UInt32.toBitVec_and, SamePrefix, Address.isV4, Address.bits, true_and]
      exact and_highMask_eq_iff _ _ h
    | v6 => simp [contains, SamePrefix, Address.isV4]
  | v6 network scope =>
    cases candidate with
    | v4 => simp [contains, SamePrefix, Address.isV4]
    | v6 address zone =>
      have hn : n ≤ 128 := h
      obtain ⟨q, r, hr, rfl⟩ : ∃ q r, r < 8 ∧ n = q * 8 + r :=
        ⟨n / 8, n % 8, Nat.mod_lt n (by omega), by omega⟩
      rw [contains_v6 network address scope zone hr]
      simp only [SamePrefix, Address.isV4, Address.bits, true_and]
      rw [take_flatMap_eq_iff (k := 8) (fun b => by simp) byteBits_injective (by simp) q hr]
      simp only [Bool.and_eq_true, beq_iff_eq, Bool.or_eq_true, decide_eq_true_eq]
      refine and_congr_right fun _ => ?_
      by_cases h0 : r = 0
      · simp [h0]
      · have hlt : q < 16 := by omega
        have hbyte (x y : UInt8) : x &&& .ofBitVec (highMask 8 r) = y &&& .ofBitVec (highMask 8 r) ↔
            (wordBits x.toBitVec).take r = (wordBits y.toBitVec).take r := by
          rw [← and_highMask_eq_iff _ _ hr.le, ← UInt8.toBitVec_inj]
          rfl
        simp [h0, hlt, hbyte]

/-- The same family and the same 32 or 128 bits. The zone of an IPv6 address is not among them. -/
def Address.SameHost : Address → Address → Prop
  | .v4 value, .v4 other => value = other
  | .v6 bytes _, .v6 other _ => bytes = other
  | _, _ => False

instance : DecidableRel Address.SameHost := fun a b =>
  match a, b with
  | .v4 value, .v4 other => inferInstanceAs (Decidable (value = other))
  | .v6 bytes _, .v6 other _ => inferInstanceAs (Decidable (bytes = other))
  | .v4 _, .v6 _ _ => .isFalse id
  | .v6 _ _, .v4 _ => .isFalse id

theorem Address.SameHost.refl (a : Address) : a.SameHost a := by
  cases a <;> exact rfl

theorem samePrefix_width_iff (a c : Address) :
    SamePrefix a.width a c ↔ a.isV4 = c.isV4 ∧ a.bits = c.bits := by
  refine and_congr_right fun hfamily => ?_
  have hwidth : a.width = c.width := by rw [Address.width, Address.width, hfamily]
  rw [List.take_of_length_le a.length_bits.le, hwidth, List.take_of_length_le c.length_bits.le]

/-- The range of one address. -/
theorem contains_width_iff (a c : Address) : contains ⟨a, a.width⟩ c = true ↔ a.SameHost c := by
  rw [contains_iff le_rfl, samePrefix_width_iff]
  cases a with
  | v4 value =>
    cases c with
    | v4 other =>
      simp only [Address.isV4, true_and, Address.bits, wordBits_injective.eq_iff,
        UInt32.toBitVec_inj, Address.SameHost]
    | v6 => simp [Address.isV4, Address.SameHost]
  | v6 bytes scope =>
    cases c with
    | v4 => simp [Address.isV4, Address.SameHost]
    | v6 other zone =>
      simp only [Address.isV4, true_and, Address.bits, Address.SameHost]
      rw [flatMap_inj (k := 8) (fun b => by simp) byteBits_injective (by simp)]
      exact Vector.toList_inj

end Network
end WebServer
