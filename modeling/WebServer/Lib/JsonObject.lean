import WebServer.Lib.JsonText

/-!
# WebServer.Lib.JsonObject

The texts of flat JSON objects: strings, integers and decimals under distinct keys, with no white
space.

* `StringText t s`, `ScalarText strtod t v`, `ObjectText strtod t v`: the text `t` stands for the
  characters, the scalar, the object. `strtod` is the conversion of decimals.
* `ReadsObjects strtod parse`: the parser takes every such text for its object.
* `parseObject`: a parser that does.
-/

namespace WebServer
namespace JsonText

variable {φ : Type} {strtod : List Char → φ}

/-! ## The grammar -/

/-- The characters that the text between two quotes stands for. -/
inductive StringText : List Char → List Char → Prop where
  | nil : StringText [] []
  | plain {c : Char} {t s : List Char} (hquote : c ≠ '"') (hslash : c ≠ '\\') (hc : 32 ≤ c.toNat)
      (h : StringText t s) : StringText (c :: t) (c :: s)
  | escaped {e c : Char} {t s : List Char} (he : unescape e = some c) (h : StringText t s) :
      StringText ('\\' :: e :: t) (c :: s)
  | unicode {x₁ x₂ x₃ x₄ c : Char} {t s : List Char} (hx : unicode x₁ x₂ x₃ x₄ = some c)
      (h : StringText t s) : StringText ('\\' :: 'u' :: x₁ :: x₂ :: x₃ :: x₄ :: t) (c :: s)

theorem StringText.append {t s t' s' : List Char} (h : StringText t s) (h' : StringText t' s') :
    StringText (t ++ t') (s ++ s') := by
  induction h with
  | nil => exact h'
  | plain hquote hslash hc _ ih => exact .plain hquote hslash hc ih
  | escaped he _ ih => exact .escaped he ih
  | unicode hx _ ih => exact .unicode hx ih

/-- Characters that need no escape stand for themselves. -/
theorem stringText_plain {s : List Char} (h : ∀ c ∈ s, c ≠ '"' ∧ c ≠ '\\' ∧ 32 ≤ c.toNat) :
    StringText s s := by
  induction s with
  | nil => exact .nil
  | cons c s ih =>
    obtain ⟨hquote, hslash, hc⟩ := h c (by simp)
    exact .plain hquote hslash hc (ih fun d hd => h d (by simp [hd]))

inductive ScalarText (strtod : List Char → φ) : List Char → Json φ → Prop where
  | str {t s : List Char} (h : StringText t s) :
      ScalarText strtod ('"' :: (t ++ ['"'])) (.str (String.ofList s))
  | int {i : Int} (hlow : -2 ^ 63 ≤ i) (hhigh : i < 2 ^ 64) :
      ScalarText strtod (printInt i) (.int i)
  | float (negative : Bool) (whole : Nat) {decimals : List Char} (hne : decimals ≠ [])
      (hdigits : ∀ c ∈ decimals, c.isDigit = true) :
      ScalarText strtod (printNumber negative whole ('.' :: decimals))
        (.float (strtod (printNumber negative whole ('.' :: decimals))))

inductive FieldText (strtod : List Char → φ) : List Char → String × Json φ → Prop where
  | mk {k key t : List Char} {v : Json φ} (hkey : StringText k key) (hv : ScalarText strtod t v) :
      FieldText strtod ('"' :: (k ++ '"' :: ':' :: t)) (String.ofList key, v)

inductive ObjectText (strtod : List Char → φ) : List Char → Json φ → Prop where
  | mk {ts : List (List Char)} {fields : List (String × Json φ)}
      (h : List.Forall₂ (FieldText strtod) ts fields) (hkeys : (fields.map Prod.fst).Nodup) :
      ObjectText strtod ('{' :: ([','].intercalate ts ++ ['}'])) (.ofFields fields)

def ReadsObjects (strtod : List Char → φ) (parse : String → Except String (Json φ)) : Prop :=
  ∀ t v, ObjectText strtod t v → parse (String.ofList t) = .ok v

/-! ## A parser -/

/-- An integer, or the number that `strtod` makes of the digits. -/
def parseDecimal (strtod : List Char → φ) (negative : Bool) (whole : Nat) :
    List Char → Option (Json φ × List Char)
  | '.' :: t =>
    let decimals := t.takeWhile Char.isDigit
    if decimals = [] then none
    else some (.float (strtod (printNumber negative whole ('.' :: decimals))), t.dropWhile Char.isDigit)
  | t =>
    let i : Int := if negative then -whole else whole
    if inRange i then some (.int i, t) else none

def parseScalar (strtod : List Char → φ) : List Char → Option (Json φ × List Char)
  | '"' :: t => (parseChars t).map fun p => (.str (String.ofList p.1), p.2)
  | t => (parseDigits (parseSign t).2).bind fun p => parseDecimal strtod (parseSign t).1 p.1 p.2

def parseKeyed (strtod : List Char → φ) (t : List Char) :
    Option ((String × Json φ) × List Char) :=
  match skip t with
  | '"' :: t =>
    match parseChars t with
    | some (key, ':' :: t) => (parseScalar strtod t).map fun p => ((String.ofList key, p.1), p.2)
    | _ => none
  | _ => none

def parseObject (strtod : List Char → φ) (text : String) : Except String (Json φ) :=
  match text.toList with
  | '{' :: t =>
    match parseList (parseKeyed strtod) '}' t with
    | some (fields, []) => .ok (.ofFields fields)
    | _ => .error "[json.exception.parse_error.101] parse error"
  | _ => .error "[json.exception.parse_error.101] parse error"

theorem StringText.parse {t s : List Char} (h : StringText t s) (r : List Char) :
    parseChars (t ++ '"' :: r) = some (s, r) := by
  induction h with
  | nil => rw [List.nil_append, parseChars]
  | plain hquote hslash hc _ ih =>
    rw [List.cons_append, parseChars, if_neg (by simp [hslash]; omega), ih]
    · rfl
    · exact hquote
    · exact fun _ _ _ _ _ h => absurd h hslash
    · exact fun _ _ h => absurd h hslash
  | @escaped e c t s he _ ih =>
    have hu : e ≠ 'u' := by
      rintro rfl
      cases he
    rw [List.cons_append, List.cons_append, parseChars_unescape hu he, ih]
    rfl
  | unicode hx _ ih =>
    simp only [List.cons_append, parseChars, hx, Option.bind_some, ih]
    rfl

theorem parseScalar_number {t : List Char} (negative : Bool) (whole : Nat)
    (ht : ∀ c ∈ t.head?, c.isDigit = false) :
    parseScalar strtod (printNumber negative whole t) = parseDecimal strtod negative whole t := by
  have hsign := parseSign_print negative whole t
  have hdigits := parseDigits_toDigits whole ht
  obtain ⟨c, rest, hprint, hc⟩ := printNumber_eq negative whole t
  have hquote : c ≠ '"' := by
    rintro rfl
    rcases hc with hc | hc <;> revert hc <;> decide
  rw [hprint] at hsign ⊢
  rw [parseScalar]
  · rw [hsign, hdigits, Option.bind_some]
  · rintro t' h
    exact hquote (List.cons.inj h).1

theorem takeWhile_digits {decimals r : List Char} (h : ∀ c ∈ decimals, c.isDigit = true)
    (hr : Ends r) : (decimals ++ r).takeWhile Char.isDigit = decimals ∧
      (decimals ++ r).dropWhile Char.isDigit = r := by
  rw [List.takeWhile_append_of_pos h, List.dropWhile_append_of_pos h]
  cases r with
  | nil => simp
  | cons c r => simp [(hr c rfl).1]

theorem ScalarText.reads {t : List Char} {v : Json φ} (h : ScalarText strtod t v) :
    Reads (parseScalar strtod) t v := by
  intro r hr
  cases h with
  | str h =>
    rw [List.cons_append, List.append_assoc, List.singleton_append, parseScalar, h.parse]
    rfl
  | @int i hlow hhigh =>
    rw [printInt_eq, parseScalar_number _ _ fun c hc => (hr c hc).1, parseDecimal]
    · simp only [natAbs_signed, inRange_of_bounds hlow hhigh, if_true]
    · rintro t rfl
      exact (hr '.' rfl).2 rfl
  | @float negative whole decimals hne hdigits =>
    obtain ⟨htake, hdrop⟩ := takeWhile_digits hdigits hr
    have happend : printNumber negative whole ('.' :: decimals) ++ r =
        printNumber negative whole ('.' :: (decimals ++ r)) := by
      simp [printNumber]
    rw [happend, parseScalar_number _ _ (by simp), parseDecimal]
    simp only [htake, hdrop, hne, if_false]

theorem FieldText.reads {t : List Char} {f : String × Json φ} (h : FieldText strtod t f) :
    Reads (parseKeyed strtod) t f := by
  intro r hr
  cases h with
  | mk hkey hv =>
    have hvalue := hv.reads r hr
    rw [parseKeyed, List.cons_append, List.append_assoc, List.cons_append, List.cons_append,
      skip_cons rfl]
    simp only [hkey.parse, hvalue, Option.map_some]

theorem parseTail_reads {α : Type} {item : List Char → Option (α × List Char)} {close : Char}
    {ts : List (List Char)} {xs : List α} (h : List.Forall₂ (Reads item) ts xs)
    (hclose : Closing close) (r : List Char) :
    ∀ n, (ts.flatMap fun t => ',' :: t).length < n →
      parseTail item close n (ts.flatMap (fun t => ',' :: t) ++ close :: r) = some (xs, r) := by
  induction h with
  | nil =>
    rintro (_ | n) hn
    · cases hn
    · simp [parseTail, skip_cons hclose.white]
  | @cons t x ts xs hitem _ ih =>
    rintro (_ | n) hn
    · cases hn
    simp only [List.flatMap_cons, List.length_append, List.length_cons] at hn
    have hends : Ends (ts.flatMap (fun t => ',' :: t) ++ close :: r) :=
      ends_tail id hclose (w := []) (by simp) ts
    rw [List.flatMap_cons, List.append_assoc, List.cons_append, parseTail, skip_cons (by decide)]
    simp only [hclose.comma.symm, if_false, if_true, hitem _ hends, ih n (by omega)]
    rfl

theorem intercalate_eq_flatMap {α : Type} (c : α) (t : List α) (ts : List (List α)) :
    [c].intercalate (t :: ts) = t ++ ts.flatMap fun t => c :: t := by
  induction ts generalizing t with
  | nil => simp [List.intercalate]
  | cons u ts ih =>
    rw [List.flatMap_cons, List.cons_append, ← ih u]
    simp [List.intercalate]

/-- The parser takes the texts of flat objects. -/
theorem readsObjects_parseObject (strtod : List Char → φ) :
    ReadsObjects strtod (parseObject strtod) := by
  rintro t v ⟨h, -⟩
  have hclose : Closing '}' := ⟨rfl, rfl, by decide, by decide⟩
  rw [parseObject, String.toList_ofList]
  cases h with
  | nil => rfl
  | @cons t f ts fields ht hts =>
    have htail := parseTail_reads (hts.imp fun _ _ h => h.reads) hclose []
    have hends : Ends (ts.flatMap (fun t => ',' :: t) ++ ['}']) :=
      ends_tail id hclose (w := []) (by simp) ts
    have hhead := ht.reads _ hends
    obtain ⟨rest, hrest⟩ : ∃ rest, t = '"' :: rest := by
      cases ht
      exact ⟨_, rfl⟩
    simp only [intercalate_eq_flatMap, List.append_assoc, parseList, hrest, List.cons_append] at hhead ⊢
    rw [skip_cons rfl]
    simp only [hhead]
    rw [htail _ (by simp)]
    rfl

end JsonText
end WebServer
