import WebServer.Lib.Joined
import WebServer.Network.Cidr
import WebServer.Policy.HardDeny

/-!
# WebServer.Policy.Cidr

The ACL conditions on addresses.

* `cidrContains` is the policy's own copy of `contains`; both hold the addresses that share the first
  bits of the network (`cidr_membership_exact`).
* `ip equal` compares texts, `ip in_cidr` addresses. They agree on a client unless the client has the
  address of the rule and the rule spells it in another way (`equal_agrees_iff`).
-/

namespace WebServer
namespace Policy

open Http
open Network

/-- `none` where the code is undefined. -/
def cidrContains (range : Range) (candidate : Address) : Option Bool :=
  match range.network, candidate with
  | .v4 network, .v4 address => do
    let mask ← v4Mask (UInt32.ofNat range.prefixLength)
    return network &&& mask == address &&& mask
  | .v6 network _, .v6 address _ => do
    let fullBytes := range.prefixLength / 8
    let remainingBits := range.prefixLength % 8
    if (← equalFront fullBytes network address) = false then return false
    if remainingBits = 0 then return true
    let mask ← v6Mask (UInt32.ofNat remainingBits)
    return (← network[fullBytes]?) &&& mask == (← address[fullBytes]?) &&& mask
  | _, _ => some false

/-! ## Accepted ranges -/

section Accepted

variable {lib : AddressText} {text : Text} {range : Range}

theorem parseRange_width (h : parseRange lib text = .ok range) :
    range.prefixLength ≤ range.network.width := by
  unfold parseRange at h
  cases hcut : cut 47 text with
  | none =>
    cases haddress : lib.makeAddress text with
    | none => simp [hcut, haddress] at h
    | some address =>
      simp only [hcut, haddress, Except.ok.injEq] at h
      rw [← h]
      exact le_rfl
  | some parts =>
    obtain ⟨addressText, prefixText⟩ := parts
    cases haddress : lib.makeAddress addressText with
    | none => simp [hcut, haddress] at h
    | some address =>
      cases hn : fromChars prefixText with
      | none => simp [hcut, haddress, hn] at h
      | some n =>
        simp only [hcut, haddress, hn] at h
        change (if address.width < n then _ else _) = _ at h
        split_ifs at h with hle
        cases h
        exact not_lt.mp hle

theorem parseAclCidr_ok (h : parseAclCidr lib text = .ok range) :
    ∃ addressText prefixText, cut 47 text = some (addressText, prefixText) ∧
      addressText ≠ [] ∧ 47 ∉ prefixText ∧ lib.makeAddress addressText = some range.network ∧
      fromChars prefixText = some range.prefixLength ∧
      range.prefixLength ≤ range.network.width := by
  unfold parseAclCidr at h
  split at h
  · cases h
  · rename_i addressText prefixText hcut
    split_ifs at h with hform
    split at h
    · cases h
    · rename_i network hnetwork
      split at h
      · cases h
      · rename_i n hn
        change (if network.width < n then _ else _) = _ at h
        split_ifs at h with hle
        cases h
        rw [not_or, not_or] at hform
        exact ⟨addressText, prefixText, hcut, hform.1, hform.2.2, hnetwork, hn, not_lt.mp hle⟩

theorem cidrContains_eq (range : Range) (candidate : Address) :
    cidrContains range candidate = containsChecked range candidate := by
  obtain ⟨network, n⟩ := range
  cases network <;> cases candidate <;> rfl

/-- Both functions are defined for every range that the parsers accept, and true of the addresses of
the same family with the same first bits. -/
theorem cidr_membership_exact (lib : AddressText) (text : Text) {range : Range}
    (h : parseRange lib text = .ok range ∨ parseAclCidr lib text = .ok range)
    (candidate : Address) :
    ∃ held, containsChecked range candidate = some held ∧ cidrContains range candidate = some held ∧
      contains range candidate = held ∧
      (held = true ↔ SamePrefix range.prefixLength range.network candidate) := by
  have hwidth : range.prefixLength ≤ range.network.width := by
    rcases h with h | h
    · exact parseRange_width h
    · obtain ⟨-, -, -, -, -, -, -, hwidth⟩ := parseAclCidr_ok h
      exact hwidth
  have hchecked := containsChecked_eq hwidth candidate
  refine ⟨contains range candidate, hchecked, ?_, rfl, contains_iff hwidth candidate⟩
  rw [cidrContains_eq, hchecked]

end Accepted

/-- A network written with host bits, and the range of all addresses. -/
theorem cidr_membership_exact_ranges :
    (∃ held, containsChecked ⟨.v4 0xc0a8_0107, 20⟩ (.v4 0xc0a8_0fff) = some held ∧
      cidrContains ⟨.v4 0xc0a8_0107, 20⟩ (.v4 0xc0a8_0fff) = some held ∧
      contains ⟨.v4 0xc0a8_0107, 20⟩ (.v4 0xc0a8_0fff) = held ∧
      (held = true ↔ SamePrefix 20 (.v4 0xc0a8_0107) (.v4 0xc0a8_0fff))) ∧
    ∃ held, containsChecked ⟨.v4 0x0a00_0000, 0⟩ (.v4 0xffff_ffff) = some held ∧
      cidrContains ⟨.v4 0x0a00_0000, 0⟩ (.v4 0xffff_ffff) = some held ∧
      contains ⟨.v4 0x0a00_0000, 0⟩ (.v4 0xffff_ffff) = held ∧
      (held = true ↔ SamePrefix 0 (.v4 0x0a00_0000) (.v4 0xffff_ffff)) :=
  ⟨cidr_membership_exact .dotted (ascii "192.168.1.7/20") (.inr (by decide)) _,
    cidr_membership_exact .dotted (ascii "10.0.0.0/0") (.inl (by decide)) _⟩

/-! ## Exact addresses -/

/-- `ip equal v` -/
def ipEqual (caseSensitive : Bool) (v : Text) : AclConditionSpec where
  field := .ip
  operation := .equal
  value := v
  caseSensitive := caseSensitive

/-- `ip in_cidr v/32`, or `v/128` when `v` is an IPv6 address. -/
def ipInCidr (a : Address) (v : Text) : AclConditionSpec where
  field := .ip
  operation := .inCidr
  value := v ++ (if a.isV4 then ascii "/32" else ascii "/128")

/-- The text as `match_condition` compares it. -/
def spelling (caseSensitive : Bool) (t : Text) : Text := if caseSensitive then t else asciiLower t

section Exact

variable {re2 : Re2} {lib : AddressText} {v : Text} {a : Address}

theorem matches_ipEqual {caseSensitive : Bool} {e : CompiledCondition}
    (he : compileCondition re2 lib (ipEqual caseSensitive v) = .ok e) (clientIp : Text) :
    matchCondition re2 lib e clientIp = true ↔
      spelling caseSensitive clientIp = spelling caseSensitive v := by
  rw [matchCondition_onAddress he rfl]
  cases caseSensitive <;> simp [AclConditionSpec.matchesIp, ipEqual, spelling]

theorem parseAclCidr_ipInCidr {range : Range} (hv : lib.makeAddress v = some a)
    (h : parseAclCidr lib (ipInCidr a v).value = .ok range) : range = ⟨a, a.width⟩ := by
  obtain ⟨addressText, prefixText, hcut, -, hslash, haddress, hprefix, -⟩ := parseAclCidr_ok h
  have htext := eq_of_cut hcut
  have hwidth : ∃ digits, (ipInCidr a v).value = v ++ 47 :: digits ∧ 47 ∉ digits ∧
      fromChars digits = some a.width := by
    unfold ipInCidr Address.width
    cases a.isV4 with
    | true => exact ⟨ascii "32", rfl, by decide, by decide⟩
    | false => exact ⟨ascii "128", rfl, by decide, by decide⟩
  obtain ⟨digits, hvalue, hdigits, hread⟩ := hwidth
  obtain ⟨rfl, rfl⟩ := append_cons_inj_last hdigits hslash (hvalue.symm.trans htext)
  rw [hv] at haddress
  rw [hread] at hprefix
  rw [Option.some.inj hprefix, Option.some.inj haddress]

theorem matches_ipInCidr {d : CompiledCondition} (hv : lib.makeAddress v = some a)
    (hd : compileCondition re2 lib (ipInCidr a v) = .ok d) (c : Address) :
    matchCondition re2 lib d (lib.toText c) = true ↔ a.SameHost c := by
  have hparse : parseAclCidr lib (ipInCidr a v).value = .ok ⟨a, a.width⟩ := by
    cases hparse : parseAclCidr lib (ipInCidr a v).value with
    | error e =>
      unfold compileCondition at hd
      split_ifs at hd
      all_goals simp_all [ipInCidr, Except.map]
    | ok range => rw [parseAclCidr_ipInCidr hv hparse]
  have hholds : (ipInCidr a v).holdsClient lib (lib.toText c) = some (contains ⟨a, a.width⟩ c) := by
    rw [AclConditionSpec.holdsClient, lib.make_toText, hparse]
    rfl
  rw [matchCondition_onAddress hd rfl, ← contains_width_iff]
  change ((ipInCidr a v).holdsClient lib (lib.toText c) == some true) = true ↔ _
  rw [hholds]
  simp

/-- The case of the letters of a text says nothing about the 32 or 128 bits of its address. -/
def CaseBlind (lib : AddressText) : Prop :=
  ∀ t u a b, lib.makeAddress t = some a → lib.makeAddress u = some b →
    asciiLower t = asciiLower u → a.SameHost b

/-- For a client with the address of the rule, `ip equal` wants the text that the client is given. -/
theorem equal_agrees_iff (re2 : Re2) {lib : AddressText} (hlib : CaseBlind lib) {v : Text}
    {a : Address} (hv : lib.makeAddress v = some a) {caseSensitive : Bool} {e d : CompiledCondition}
    (he : compileCondition re2 lib (ipEqual caseSensitive v) = .ok e)
    (hd : compileCondition re2 lib (ipInCidr a v) = .ok d) (c : Address) :
    (matchCondition re2 lib e (lib.toText c) = true ↔
        matchCondition re2 lib d (lib.toText c) = true) ↔
      (a.SameHost c → spelling caseSensitive v = spelling caseSensitive (lib.toText c)) := by
  rw [matches_ipEqual he, matches_ipInCidr hv hd]
  have hsame : spelling caseSensitive (lib.toText c) = spelling caseSensitive v → a.SameHost c := by
    intro hspelling
    refine hlib v (lib.toText c) a c hv (lib.make_toText c) ?_
    cases caseSensitive with
    | false => exact hspelling.symm
    | true => exact congrArg asciiLower hspelling.symm
  constructor
  · intro hagree hhost
    exact (hagree.mpr hhost).symm
  · intro hhost
    exact ⟨hsame, fun h => (hhost h).symm⟩

end Exact

/-! ### Two spellings

`2001:0db8::1` and `2001:db8::1` are one address, and `to_string` writes the second. -/

namespace TwoSpellings

def address : Address :=
  .v6 #v[0x20, 0x01, 0x0d, 0xb8, 0, 0, 0, 0, 0, 0, 0, 0, 0, 0, 0, 1] 0

def canonical : Text := ascii "2001:db8::1"

def padded : Text := ascii "2001:0db8::1"

/-- `AddressText.dotted` with the two spellings, in either case. -/
def makeAddress (t : Text) : Option Address :=
  if asciiLower t = canonical ∨ asciiLower t = padded then some address
  else AddressText.dotted.makeAddress t

def toText (a : Address) : Text := if a = address then canonical else AddressText.dotted.toText a

theorem asciiLower_of_parseByte {t : Text} {n : ℕ} (h : Dotted.parseByte t = some n) :
    asciiLower t = t := by
  refine (List.map_congr_left fun b hb => ?_).trans t.map_id
  have hdigit := (Dotted.parseByte_digits h b hb).2
  have hletter : ¬ (65 ≤ b ∧ b ≤ 90) := fun h =>
    absurd (UInt8.le_trans h.1 hdigit) (by decide)
  rw [lower, if_neg hletter]
  rfl

theorem asciiLower_of_parseBytes {t : Text} {ns : List ℕ} (h : Dotted.parseBytes t = some ns) :
    asciiLower t = t := by
  have hpieces : (t.splitOn 46).map asciiLower = t.splitOn 46 := by
    refine (List.map_congr_left fun piece hpiece => ?_).trans (List.map_id _)
    obtain ⟨n, hn⟩ := Dotted.parseByte_of_mapM h hpiece
    exact asciiLower_of_parseByte hn
  have hjoined := Joined.map_intercalate lower (c := 46) rfl (t.splitOn 46)
  rw [show List.map lower = asciiLower from rfl, hpieces, List.intercalate_splitOn] at hjoined
  exact hjoined

/-- A text that the library with dots accepts has no letters. -/
theorem asciiLower_of_dotted {t : Text} {a : Address}
    (h : AddressText.dotted.makeAddress t = some a) : asciiLower t = t := by
  change Dotted.parse t = some a at h
  unfold Dotted.parse at h
  split at h
  · rename_i rest
    cases hread : Dotted.parseBytes rest with
    | none => rw [hread] at h; cases h
    | some ns =>
      have hrest := asciiLower_of_parseBytes hread
      exact congrArg (58 :: ·) hrest
  · cases hread : Dotted.parseBytes t with
    | none => rw [hread] at h; cases h
    | some ns => exact asciiLower_of_parseBytes hread

theorem make_toText (a : Address) : makeAddress (toText a) = some a := by
  unfold toText
  by_cases ha : a = address
  · rw [if_pos ha, ha]
    decide
  · rw [if_neg ha]
    have hread := AddressText.dotted.make_toText a
    have hlower := asciiLower_of_dotted hread
    have hnot : ¬ (AddressText.dotted.toText a = canonical ∨
        AddressText.dotted.toText a = padded) := by
      have hcanonical : AddressText.dotted.makeAddress canonical = none := by decide
      have hpadded : AddressText.dotted.makeAddress padded = none := by decide
      rintro (htext | htext)
      · rw [htext, hcanonical] at hread
        cases hread
      · rw [htext, hpadded] at hread
        cases hread
    rw [makeAddress, hlower, if_neg hnot, hread]

def lib : AddressText := ⟨makeAddress, toText, make_toText⟩

theorem caseBlind : CaseBlind lib := by
  intro t u a b ht hu htu
  change makeAddress t = some a at ht
  change makeAddress u = some b at hu
  unfold makeAddress at ht hu
  rw [← htu] at hu
  split_ifs at ht hu with hspelled
  · cases ht
    cases hu
    exact .refl address
  · rw [asciiLower_of_dotted ht, asciiLower_of_dotted hu] at htu
    rw [htu, hu] at ht
    cases ht
    exact .refl a

/-- `ip equal v` -/
def exact (v : Text) : CompiledCondition := ⟨ipEqual false v, none⟩

/-- `ip in_cidr v/128` -/
def range (v : Text) : CompiledCondition := ⟨ipInCidr address v, some ⟨address, 128⟩⟩

def re2 : Re2 := ⟨fun _ _ => false, fun _ _ _ => false⟩

/-- The rule spells the address of the client with a zero more. -/
theorem equal_misses_padded :
    lib.makeAddress padded = some address ∧
      compileCondition re2 lib (ipEqual false padded) = .ok (exact padded) ∧
      compileCondition re2 lib (ipInCidr address padded) = .ok (range padded) ∧
      matchCondition re2 lib (exact padded) (lib.toText address) = false ∧
      matchCondition re2 lib (range padded) (lib.toText address) = true := by
  decide

/-- Spelled as the text of the client, the rule finds the client, and so does the range. -/
theorem equal_agrees_iff_canonical :
    matchCondition re2 lib (exact canonical) (lib.toText address) = true ∧
      matchCondition re2 lib (range canonical) (lib.toText address) = true := by
  have hagree := (equal_agrees_iff re2 caseBlind (v := canonical) (a := address) (by decide)
    (show compileCondition re2 lib (ipEqual false canonical) = .ok (exact canonical) by decide)
    (show compileCondition re2 lib (ipInCidr address canonical) = .ok (range canonical) by
      decide) address).mpr fun _ => by decide
  have hexact : matchCondition re2 lib (exact canonical) (lib.toText address) = true := by
    decide
  exact ⟨hexact, hagree.mp hexact⟩

end TwoSpellings

end Policy
end WebServer
