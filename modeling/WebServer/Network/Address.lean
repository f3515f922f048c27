import WebServer.Lib.Wire

/-!
# WebServer.Network.Address

IP addresses and the ranges of addresses that CIDR notation gives.

* `Address` is `boost::asio::ip::address`; `AddressText` is its text form.
* `Range`, `parseRange`, `contains`: the trusted ranges of `ClientIpResolver`.
* `AddressText.dotted` writes IPv4 addresses with dots, as the library does.
-/

namespace WebServer
namespace Network

open Http

/-- `to_v4().to_uint()`, or `to_v6().to_bytes()` and the zone. -/
inductive Address where
  | v4 (value : UInt32)
  | v6 (bytes : Vector UInt8 16) (scope : UInt32)
  deriving DecidableEq

def Address.isV4 : Address → Bool
  | .v4 _ => true
  | .v6 _ _ => false

/-- `make_address` and `address::to_string`. -/
structure AddressText where
  makeAddress : Text → Option Address
  toText : Address → Text
  make_toText : ∀ a, makeAddress (toText a) = some a

theorem AddressText.toText_inj (lib : AddressText) {a b : Address} (h : lib.toText a = lib.toText b) :
    a = b := by
  have ha := lib.make_toText a
  rw [h, lib.make_toText b] at ha
  cases ha
  rfl

/-! ## Ranges -/

structure Range where
  network : Address
  prefixLength : Nat
  deriving DecidableEq

/-- `std::from_chars` into an `unsigned`, on the whole text. -/
def fromChars (t : Text) : Option Nat :=
  if t ≠ [] ∧ t.all (fun b => 48 ≤ b && b ≤ 57) = true then
    let n := Nat.ofDigits 10 (t.reverse.map fun b => b.toNat - 48)
    if n < 2 ^ 32 then some n else none
  else none

def parseRange (lib : AddressText) (text : Text) : Except Text Range :=
  let addressText := match cut 47 text with
    | none => text
    | some (before, _) => before
  match lib.makeAddress addressText with
  | none => .error (ascii "invalid trusted proxy CIDR: " ++ text)
  | some address =>
    let maximum := if address.isV4 then 32 else 128
    match cut 47 text with
    | none => .ok ⟨address, maximum⟩
    | some (_, prefixText) =>
      match fromChars prefixText with
      | none => .error (ascii "invalid trusted proxy CIDR prefix: " ++ text)
      | some n =>
        if maximum < n then .error (ascii "invalid trusted proxy CIDR prefix: " ++ text)
        else .ok ⟨address, n⟩

def contains (range : Range) (candidate : Address) : Bool :=
  match range.network, candidate with
  | .v4 network, .v4 address =>
    let mask : UInt32 :=
      if range.prefixLength = 0 then 0
      else 0xffffffff <<< UInt32.ofNat (32 - range.prefixLength)
    network &&& mask == address &&& mask
  | .v6 network _, .v6 address _ =>
    let fullBytes := range.prefixLength / 8
    let remaining := range.prefixLength % 8
    if network.toList.take fullBytes != address.toList.take fullBytes then false
    else if remaining = 0 then true
    else
      let mask : UInt8 := 0xff <<< UInt8.ofNat (8 - remaining)
      network.toList.getD fullBytes 0 &&& mask == address.toList.getD fullBytes 0 &&& mask
  | _, _ => false

/-! ## Addresses with dots

`AddressText.dotted` agrees with the library on IPv4 addresses. IPv6 addresses are written as a colon
and their bytes and those of the zone in decimal, which is not the form of the library. -/

namespace Dotted

def printByte (n : Nat) : Text :=
  if n < 10 then [UInt8.ofNat (48 + n)]
  else if n < 100 then [UInt8.ofNat (48 + n / 10), UInt8.ofNat (48 + n % 10)]
  else [UInt8.ofNat (48 + n / 100), UInt8.ofNat (48 + n / 10 % 10), UInt8.ofNat (48 + n % 10)]

/-- One to three digits without a leading zero, at most 255. -/
def parseByte (t : Text) : Option Nat :=
  if t = [] ∨ 3 < t.length ∨ t.any (fun b => b < 48 || 57 < b) = true ∨
      (1 < t.length ∧ t.head? = some 48) then none
  else
    let n := Nat.ofDigits 10 (t.reverse.map fun b => b.toNat - 48)
    if n < 256 then some n else none

theorem parseByte_printByte : ∀ n < 256, parseByte (printByte n) = some n := by decide +kernel

theorem dot_not_mem_printByte : ∀ n < 256, (46 : UInt8) ∉ printByte n := by decide +kernel

theorem colon_not_mem_printByte : ∀ n < 256, (58 : UInt8) ∉ printByte n := by decide +kernel

def printBytes (bytes : List Nat) : Text := [46].intercalate (bytes.map printByte)

def parseBytes (t : Text) : Option (List Nat) := (t.splitOn 46).mapM parseByte

theorem parseBytes_printBytes {bytes : List Nat} (hne : bytes ≠ []) (h : ∀ n ∈ bytes, n < 256) :
    parseBytes (printBytes bytes) = some bytes := by
  unfold parseBytes printBytes
  rw [List.splitOn_intercalate]
  · induction bytes with
    | nil => exact absurd rfl hne
    | cons n rest ih =>
      rw [List.map_cons, List.mapM_cons, parseByte_printByte n (h n (by simp))]
      cases rest with
      | nil => rfl
      | cons m rest => rw [ih (by simp) fun k hk => h k (by simp [hk])]; rfl
  · intro l hl
    simp only [List.mem_map] at hl
    obtain ⟨n, hn, rfl⟩ := hl
    exact dot_not_mem_printByte n (h n hn)
  · simpa using hne

theorem parseByte_digits {t : Text} {n : Nat} (h : parseByte t = some n) :
    ∀ b ∈ t, 48 ≤ b ∧ b ≤ 57 := by
  intro b hb
  unfold parseByte at h
  split at h
  · cases h
  · rename_i htest
    simp only [not_or, List.any_eq_true, not_exists, not_and] at htest
    have hdigit := htest.2.2.1 b hb
    simpa only [Bool.or_eq_true, decide_eq_true_eq, not_or, UInt8.not_lt] using hdigit

theorem parseByte_of_mapM {pieces : List Text} {ns : List Nat}
    (h : pieces.mapM parseByte = some ns) {piece : Text} (hpiece : piece ∈ pieces) :
    ∃ n, parseByte piece = some n := by
  induction pieces generalizing ns with
  | nil => cases hpiece
  | cons first rest ih =>
    rw [List.mapM_cons] at h
    obtain ⟨n, hn, h⟩ := Option.bind_eq_some_iff.mp h
    obtain ⟨ms, hms, -⟩ := Option.bind_eq_some_iff.mp h
    rcases List.mem_cons.mp hpiece with rfl | hpiece
    · exact ⟨n, hn⟩
    · exact ih hms hpiece

/-- The bytes of a word, most significant first. -/
def word (n : Nat) : List Nat := [n / 2 ^ 24, n / 2 ^ 16 % 256, n / 2 ^ 8 % 256, n % 256]

def ofWord : List Nat → Option UInt32
  | [a, b, c, d] => some (UInt32.ofNat (((a * 256 + b) * 256 + c) * 256 + d))
  | _ => none

theorem ofWord_word (a : UInt32) : ofWord (word a.toNat) = some a := by
  have ha := a.toNat_lt
  simp only [word, ofWord, Option.some.injEq]
  rw [show ((a.toNat / 2 ^ 24 * 256 + a.toNat / 2 ^ 16 % 256) * 256 + a.toNat / 2 ^ 8 % 256) * 256 +
    a.toNat % 256 = a.toNat by omega]
  exact UInt32.ofNat_toNat

theorem word_lt (a : UInt32) : ∀ n ∈ word a.toNat, n < 256 := by
  have ha := a.toNat_lt
  intro n hn
  simp only [word, List.mem_cons, List.not_mem_nil, or_false] at hn
  omega

def print : Address → Text
  | .v4 a => printBytes (word a.toNat)
  | .v6 bytes scope => 58 :: printBytes (bytes.toList.map UInt8.toNat ++ word scope.toNat)

def parse (t : Text) : Option Address :=
  match t with
  | 58 :: rest =>
    match parseBytes rest with
    | none => none
    | some ns =>
      if h : (ns.take 16).length = 16 then
        (ofWord (ns.drop 16)).map fun scope =>
          .v6 ⟨((ns.take 16).map UInt8.ofNat).toArray, by simpa using h⟩ scope
      else none
  | _ =>
    match parseBytes t with
    | none => none
    | some ns => (ofWord ns).map .v4

theorem mem_printBytes {bytes : List Nat} {b : UInt8} (h : b ∈ printBytes bytes) :
    b = 46 ∨ ∃ n ∈ bytes, b ∈ printByte n := by
  unfold printBytes at h
  induction bytes with
  | nil => simp at h
  | cons n rest ih =>
    cases rest with
    | nil =>
      simp only [List.map_cons, List.map_nil, List.intercalate_singleton] at h
      exact .inr ⟨n, by simp, h⟩
    | cons m rest =>
      rw [List.map_cons, List.map_cons, List.intercalate_cons_cons, List.mem_append,
        List.mem_append] at h
      rcases h with (h | h) | h
      · exact .inr ⟨n, by simp, h⟩
      · exact .inl (List.mem_singleton.mp h)
      · exact (ih h).imp id fun ⟨k, hk, hb⟩ => ⟨k, by simp [hk], hb⟩

theorem printBytes_no_colon {bytes : List Nat} (h : ∀ n ∈ bytes, n < 256) :
    (58 : UInt8) ∉ printBytes bytes := by
  intro hm
  rcases mem_printBytes hm with hdot | ⟨n, hn, hm⟩
  · cases hdot
  · exact colon_not_mem_printByte n (h n hn) hm

theorem printByte_lt : ∀ n < 256, ∀ b ∈ printByte n, b < 128 := by
  have hall : ∀ n < 256, ((printByte n).all fun b => decide (b < 128)) = true := by decide +kernel
  exact fun n hn => forall_of_all (hall n hn)

theorem printBytes_lt {bytes : List Nat} (h : ∀ n ∈ bytes, n < 256) :
    ∀ b ∈ printBytes bytes, b < 128 := by
  intro b hb
  rcases mem_printBytes hb with rfl | ⟨n, hn, hb⟩
  · decide
  · exact printByte_lt n (h n hn) b hb

theorem scoped_lt (bytes : Vector UInt8 16) (scope : UInt32) :
    ∀ n ∈ bytes.toList.map UInt8.toNat ++ word scope.toNat, n < 256 := by
  intro n hn
  rcases List.mem_append.mp hn with hn | hn
  · obtain ⟨b, -, rfl⟩ := List.mem_map.mp hn
    exact b.toNat_lt
  · exact word_lt scope n hn

theorem print_lt (a : Address) : ∀ b ∈ print a, b < 128 := by
  intro b hb
  cases a with
  | v4 a => exact printBytes_lt (word_lt a) b hb
  | v6 bytes scope =>
    rcases List.mem_cons.mp hb with rfl | hb
    · decide
    · exact printBytes_lt (scoped_lt bytes scope) b hb

theorem parse_print (a : Address) : parse (print a) = some a := by
  cases a with
  | v4 a =>
    have hcolon := printBytes_no_colon (word_lt a)
    have hread := parseBytes_printBytes (by simp [word]) (word_lt a)
    rw [print]
    unfold parse
    split
    · rename_i rest heq
      rw [heq] at hcolon
      simp at hcolon
    · rw [hread]
      simp only [ofWord_word, Option.map_some]
  | v6 bytes scope =>
    have hlen : (bytes.toList.map UInt8.toNat).length = 16 := by simp
    have hread := parseBytes_printBytes (by simp [word]) (scoped_lt bytes scope)
    have htake : (bytes.toList.map UInt8.toNat ++ word scope.toNat).take 16 =
        bytes.toList.map UInt8.toNat := by
      rw [List.take_append_of_le_length (by omega), List.take_of_length_le (by omega)]
    have hdrop : (bytes.toList.map UInt8.toNat ++ word scope.toNat).drop 16 = word scope.toNat := by
      rw [List.drop_append_of_le_length (by omega), List.drop_of_length_le (by omega)]
      rfl
    simp only [parse, print, hread, htake, hdrop, hlen, ofWord_word, Option.map_some, dif_pos,
      Option.some.injEq, Address.v6.injEq, and_true]
    apply Vector.toArray_inj.mp
    simp [Function.comp_def, Vector.toList]

end Dotted

def AddressText.dotted : AddressText := ⟨Dotted.parse, Dotted.print, Dotted.parse_print⟩

end Network
end WebServer
