import WebServer.Lib.Fields

/-!
# WebServer.Lib.Utf8

Byte strings that are UTF-8.

* `decode t`: the characters of the bytes, `none` when the bytes are ill formed.
* `encode cs`: the bytes of characters; what is well formed is one of these (`valid_iff`).
* `valid_of_ascii`: what has no byte from 128 on is well formed.
* `valid_append_cons`: a byte below 128 cuts a text into two that are well formed each.
-/

namespace WebServer
namespace Utf8

open Http (Text)

def decode (t : Text) : Option String := String.fromUTF8? ⟨t.toArray⟩

def Valid (t : Text) : Prop := (ByteArray.mk t.toArray).IsValidUTF8

instance (t : Text) : Decidable (Valid t) := inferInstanceAs (Decidable (ByteArray.IsValidUTF8 _))

theorem decode_of_valid {t : Text} (h : Valid t) : decode t = some (String.fromUTF8 ⟨t.toArray⟩ h) :=
  dif_pos h

theorem decode_of_not_valid {t : Text} (h : ¬ Valid t) : decode t = none := dif_neg h

theorem valid_nil : Valid [] := ByteArray.isValidUTF8_empty

theorem utf8EncodeChar_ofNat {b : UInt8} (h : b < 128) :
    String.utf8EncodeChar (Char.ofNat b.toNat) = [b] := by
  have hb : b.toNat < 128 := UInt8.lt_iff_toNat_lt.mp h
  revert hb
  generalize hn : b.toNat = n
  intro hb
  have hbyte : b = UInt8.ofNat n := by rw [← hn, UInt8.ofNat_toNat]
  rw [hbyte]
  clear hn hbyte h b
  revert n
  decide

/-- The bytes of characters. -/
def encode (cs : List Char) : Text := cs.flatMap String.utf8EncodeChar

theorem toByteArray_eq (t : Text) : t.toByteArray = ByteArray.mk t.toArray := by
  apply ByteArray.ext
  rw [List.data_toByteArray]

theorem valid_iff {t : Text} : Valid t ↔ ∃ cs, encode cs = t := by
  constructor
  · rintro ⟨cs, h⟩
    rw [List.utf8Encode, toByteArray_eq, ByteArray.mk.injEq] at h
    exact ⟨cs, (List.toArray_inj h).symm⟩
  · rintro ⟨cs, rfl⟩
    rw [Valid, ← toByteArray_eq]
    exact ByteArray.isValidUTF8_utf8Encode

theorem valid_encode (cs : List Char) : Valid (encode cs) := valid_iff.mpr ⟨cs, rfl⟩

theorem decode_encode (cs : List Char) : decode (encode cs) = some (String.ofList cs) := by
  rw [decode_of_valid (valid_encode cs), Option.some.injEq, ← String.toByteArray_inj,
    String.toByteArray_ofList, List.utf8Encode, toByteArray_eq]
  rfl

theorem encode_cons (c : Char) (cs : List Char) :
    encode (c :: cs) = String.utf8EncodeChar c ++ encode cs := List.flatMap_cons

theorem encode_append (cs ds : List Char) : encode (cs ++ ds) = encode cs ++ encode ds :=
  List.flatMap_append

/-- The characters below 128 are their own encoding. -/
theorem encode_ascii {t : Text} (h : ∀ b ∈ t, b < 128) :
    encode (t.map fun b => Char.ofNat b.toNat) = t := by
  rw [encode, List.flatMap_map]
  calc t.flatMap (fun b => String.utf8EncodeChar (Char.ofNat b.toNat))
      = t.flatMap (fun b => [b]) :=
        List.flatMap_congr fun b hb => utf8EncodeChar_ofNat (h b hb)
    _ = t := by simp

theorem valid_of_ascii {t : Text} (h : ∀ b ∈ t, b < 128) : Valid t :=
  valid_iff.mpr ⟨_, encode_ascii h⟩

theorem le_or (x k : UInt8) : k ≤ x ||| k := by
  rw [UInt8.le_iff_toNat_le, UInt8.toNat_or]
  exact Nat.right_le_or

/-- A character is one byte below 128, or bytes from 128 on. -/
theorem utf8EncodeChar_cases (c : Char) :
    c.toNat < 128 ∧ String.utf8EncodeChar c = [UInt8.ofNat c.toNat] ∨
      128 ≤ c.toNat ∧ ∀ b ∈ String.utf8EncodeChar c, 128 ≤ b := by
  by_cases hone : c.utf8Size = 1
  · have hle := Char.utf8Size_eq_one_iff.mp hone
    rw [UInt32.le_iff_toNat_le] at hle
    exact .inl ⟨Nat.lt_succ_of_le hle, String.utf8EncodeChar_eq_singleton hone⟩
  have hgt : 128 ≤ c.toNat := by
    rw [Char.utf8Size_eq_one_iff, UInt32.le_iff_toNat_le] at hone
    exact Nat.lt_of_not_le hone
  have hhigh : ∀ x k : UInt8, 128 ≤ k → 128 ≤ x ||| k := fun x k hk => UInt8.le_trans hk (le_or x k)
  refine .inr ⟨hgt, fun b hb => ?_⟩
  rcases c.utf8Size_eq.resolve_left hone with htwo | hthree | hfour
  · simp only [String.utf8EncodeChar_eq_cons_cons htwo, List.mem_cons, List.not_mem_nil, or_false] at hb
    rcases hb with rfl | rfl <;> exact hhigh _ _ (by decide)
  · simp only [String.utf8EncodeChar_eq_cons_cons_cons hthree, List.mem_cons, List.not_mem_nil,
      or_false] at hb
    rcases hb with rfl | rfl | rfl <;> exact hhigh _ _ (by decide)
  · simp only [String.utf8EncodeChar_eq_cons_cons_cons_cons hfour, List.mem_cons, List.not_mem_nil,
      or_false] at hb
    rcases hb with rfl | rfl | rfl | rfl <;> exact hhigh _ _ (by decide)

/-- A byte below 128 is a character of its own: what is before it and what is after it are well formed
each. -/
theorem valid_append_cons {a b : Text} {c : UInt8} (hc : c < 128) :
    Valid (a ++ c :: b) ↔ Valid a ∧ Valid b := by
  constructor
  · rw [valid_iff, valid_iff, valid_iff]
    rintro ⟨cs, h⟩
    induction cs generalizing a with
    | nil => simp [encode] at h
    | cons d cs ih =>
      rw [encode_cons] at h
      rcases List.append_eq_append_iff.mp h with ⟨rest, hrest, hcs⟩ | ⟨rest, hrest, hcs⟩
      · obtain ⟨⟨ds, hds⟩, hb⟩ := ih hcs
        exact ⟨⟨d :: ds, by rw [encode_cons, hds, hrest]⟩, hb⟩
      · -- the byte is in the character: it is all of it
        cases rest with
        | nil =>
          obtain ⟨⟨ds, hds⟩, hb⟩ := ih (a := []) hcs.symm
          exact ⟨⟨d :: ds, by rw [encode_cons, hds, hrest, List.append_nil, List.append_nil]⟩, hb⟩
        | cons e rest =>
          rw [List.cons_append, List.cons.injEq] at hcs
          obtain ⟨rfl, hb⟩ := hcs
          rcases utf8EncodeChar_cases d with ⟨-, hone⟩ | ⟨-, hhigh⟩
          · rw [hone] at hrest
            obtain ⟨rfl, rfl⟩ : a = [] ∧ rest = [] := by
              have hlength := congrArg List.length hrest
              simp only [List.length_append, List.length_cons, List.length_nil] at hlength
              exact ⟨List.length_eq_zero_iff.mp (by omega), List.length_eq_zero_iff.mp (by omega)⟩
            exact ⟨⟨[], rfl⟩, cs, hb.symm⟩
          · exact absurd (hhigh c (by simp [hrest])) (UInt8.not_le.mpr hc)
  · rintro ⟨ha, hb⟩
    obtain ⟨cs, rfl⟩ := valid_iff.mp ha
    obtain ⟨ds, rfl⟩ := valid_iff.mp hb
    rw [valid_iff]
    exact ⟨cs ++ Char.ofNat c.toNat :: ds, by
      rw [encode_append, encode_cons, utf8EncodeChar_ofNat hc, List.singleton_append]⟩

theorem valid_ascii_append {a b : Text} (h : ∀ c ∈ a, c < 128) : Valid (a ++ b) ↔ Valid b := by
  induction a with
  | nil => rfl
  | cons c a ih =>
    have hsplit := valid_append_cons (a := []) (b := a ++ b) (h c (by simp))
    rw [List.nil_append] at hsplit
    rw [List.cons_append, hsplit, ih fun d hd => h d (by simp [hd])]
    exact and_iff_right valid_nil

/-- An escape that leaves the bytes from 128 on alone and writes no others neither makes a text well
formed nor breaks it. -/
theorem valid_flatMap {escape : UInt8 → Text} (hhigh : ∀ b, 128 ≤ b → escape b = [b])
    (hascii : ∀ b, b < 128 → escape b ≠ [] ∧ ∀ c ∈ escape b, c < 128) (t : Text) :
    Valid (t.flatMap escape) ↔ Valid t := by
  -- by the length of what follows the first byte below 128
  induction hn : t.length using Nat.strong_induction_on generalizing t with
  | _ n ih =>
    have hsame : ∀ u : Text, (∀ b ∈ u, 128 ≤ b) → u.flatMap escape = u := by
      intro u hu
      rw [List.flatMap_congr fun b hb => hhigh b (hu b hb)]
      simp
    have htake : ∀ b ∈ t.takeWhile (128 ≤ ·), 128 ≤ b := fun b hb => by
      simpa using List.mem_takeWhile_imp hb
    have ht := List.takeWhile_append_dropWhile (p := fun b => decide (128 ≤ b)) (l := t)
    cases hdrop : t.dropWhile (128 ≤ ·) with
    | nil =>
      rw [hdrop, List.append_nil] at ht
      rw [← ht, hsame _ htake]
    | cons c rest =>
      have hc : c < 128 := by
        have := List.dropWhile_get_zero_not (fun b => decide (128 ≤ b)) t (by simp [hdrop])
        simpa [hdrop] using this
      have hlt : rest.length < n := by
        rw [← hn, ← ht, hdrop]
        simp only [List.length_append, List.length_cons]
        omega
      obtain ⟨hne, hall⟩ := hascii c hc
      obtain ⟨d, ds, hds⟩ := List.exists_cons_of_ne_nil hne
      rw [hds] at hall
      rw [← ht, hdrop, List.flatMap_append, hsame _ htake, List.flatMap_cons, hds, List.cons_append,
        valid_append_cons (hall d (by simp)), valid_append_cons hc,
        valid_ascii_append fun e he => hall e (by simp [he]), ih _ hlt _ rfl]

end Utf8
end WebServer
