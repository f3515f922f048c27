import WebServer.Lib.Json

/-!
# WebServer.Lib.JsonText

JSON texts: a printer and a reader of values, as a `Codec`.

Strings are escaped as short as possible and otherwise left as they are. The reader takes white
space between tokens; it takes no number with an exponent or with more than one decimal, no integer
that does not fit into 64 bits and no escaped surrogates.

* `Tenths`: the floats.
* `Layout`: the white space of a printed value.
* `parseValue_print`: a canonical value is read back from its text, in any layout.
* `JsonText.codec`: the codec.
-/

namespace WebServer
namespace JsonText

/-- A float with one decimal. Zero has a sign. -/
structure Tenths where
  negative : Bool
  whole : Nat
  tenth : Fin 10
  deriving DecidableEq

abbrev Value := Json Tenths

def isWhite (c : Char) : Bool := c == ' ' || c == '\n' || c == '\t' || c == '\r'

def skip (t : List Char) : List Char := t.dropWhile isWhite

/-! ## Printing -/

def escape (c : Char) : List Char :=
  if c = '"' then ['\\', '"']
  else if c = '\\' then ['\\', '\\']
  else if c = '\x08' then ['\\', 'b']
  else if c = '\x0c' then ['\\', 'f']
  else if c = '\n' then ['\\', 'n']
  else if c = '\r' then ['\\', 'r']
  else if c = '\t' then ['\\', 't']
  else if c.toNat < 32 then
    ['\\', 'u', '0', '0', (c.toNat / 16).digitChar, (c.toNat % 16).digitChar]
  else [c]

def printString (s : String) : List Char := '"' :: s.toList.flatMap escape ++ ['"']

def printInt (i : Int) : List Char :=
  if i < 0 then '-' :: Nat.toDigits 10 i.natAbs else Nat.toDigits 10 i.natAbs

def printTenths (x : Tenths) : List Char :=
  (if x.negative then ['-'] else []) ++ Nat.toDigits 10 x.whole ++ ['.', x.tenth.1.digitChar]

/-- What stands before a value of a list at some depth, and after a colon. -/
structure Layout where
  line : Nat → List Char
  gap : List Char
  line_white : ∀ d, ∀ c ∈ line d, isWhite c = true
  gap_white : ∀ c ∈ gap, isWhite c = true

def Layout.compact : Layout := ⟨fun _ => [], [], by simp, by simp⟩

/-- Two blanks for each depth. -/
def Layout.indented : Layout where
  line d := '\n' :: List.replicate (2 * d) ' '
  gap := [' ']
  line_white d c hc := by
    rcases List.mem_cons.mp hc with rfl | hc
    · rfl
    · rw [List.eq_of_mem_replicate hc]
      rfl
  gap_white c hc := by
    rw [List.mem_singleton.mp hc]
    rfl

section Print

variable (l : Layout)

mutual

def print (d : Nat) : Value → List Char
  | .null => ['n', 'u', 'l', 'l']
  | .bool true => ['t', 'r', 'u', 'e']
  | .bool false => ['f', 'a', 'l', 's', 'e']
  | .int i => printInt i
  | .float x => printTenths x
  | .str s => printString s
  | .arr [] => ['[', ']']
  | .arr (v :: items) =>
    '[' :: (l.line (d + 1) ++ print (d + 1) v ++ printItems (d + 1) items) ++ l.line d ++ [']']
  | .obj [] => ['{', '}']
  | .obj ((key, v) :: fields) =>
    '{' :: (l.line (d + 1) ++ printString key ++ ':' :: l.gap ++ print (d + 1) v ++
      printFields (d + 1) fields) ++ l.line d ++ ['}']

def printItems (d : Nat) : List Value → List Char
  | [] => []
  | v :: items => ',' :: l.line d ++ print d v ++ printItems d items

def printFields (d : Nat) : List (String × Value) → List Char
  | [] => []
  | (key, v) :: fields =>
    ',' :: l.line d ++ printString key ++ ':' :: l.gap ++ print d v ++ printFields d fields

end

end Print

/-! ## Reading -/

def hexDigitValue (c : Char) : Option Nat :=
  if c.isDigit then some (c.toNat - 48)
  else if 'a' ≤ c ∧ c ≤ 'f' then some (c.toNat - 87)
  else if 'A' ≤ c ∧ c ≤ 'F' then some (c.toNat - 55)
  else none

/-- Four digits, for a character that is no surrogate. -/
def unicode (a b c d : Char) : Option Char := do
  let a ← hexDigitValue a
  let b ← hexDigitValue b
  let c ← hexDigitValue c
  let d ← hexDigitValue d
  let n := ((16 * a + b) * 16 + c) * 16 + d
  if n.isValidChar then some (Char.ofNat n) else none

/-- The character of a short escape. -/
def unescape (c : Char) : Option Char :=
  if c = '"' then some '"'
  else if c = '\\' then some '\\'
  else if c = '/' then some '/'
  else if c = 'b' then some '\x08'
  else if c = 'f' then some '\x0c'
  else if c = 'n' then some '\n'
  else if c = 'r' then some '\r'
  else if c = 't' then some '\t'
  else none

/-- One more character in front of what was read. -/
def consChar (c : Char) (p : Option (List Char × List Char)) : Option (List Char × List Char) :=
  p.map fun p => (c :: p.1, p.2)

/-- The characters up to the closing quote, and what follows it. -/
def parseChars : List Char → Option (List Char × List Char)
  | [] => none
  | '"' :: t => some ([], t)
  | '\\' :: 'u' :: a :: b :: c :: d :: t => (unicode a b c d).bind fun x => consChar x (parseChars t)
  | '\\' :: e :: t => (unescape e).bind fun x => consChar x (parseChars t)
  | c :: t => if c = '\\' ∨ c.toNat < 32 then none else consChar c (parseChars t)

def parseDigits (t : List Char) : Option (Nat × List Char) :=
  let digits := t.takeWhile Char.isDigit
  if digits = [] ∨ digits.head? = some '0' ∧ digits.length ≠ 1 then none
  else some (Nat.ofDigitChars 10 digits 0, t.dropWhile Char.isDigit)

def inRange (i : Int) : Bool := -2 ^ 63 ≤ i && i < 2 ^ 64

def parseSign : List Char → Bool × List Char
  | '-' :: t => (true, t)
  | t => (false, t)

/-- An integer, or what stands before and after the point of a float. -/
def ofDigits (negative : Bool) (whole : Nat) : List Char → Option (Value × List Char)
  | '.' :: d :: t =>
    if d.isDigit = true then
      some (.float ⟨negative, whole, ⟨(d.toNat - 48) % 10, Nat.mod_lt _ (by decide)⟩⟩, t)
    else none
  | t =>
    let i : Int := if negative then -whole else whole
    if inRange i then some (.int i, t) else none

def parseNumber (t : List Char) : Option (Value × List Char) :=
  (parseDigits (parseSign t).2).bind fun p => ofDigits (parseSign t).1 p.1 p.2

def parseLiteral (word : List Char) (v : Value) (t : List Char) : Option (Value × List Char) :=
  if word.isPrefixOf t then some (v, t.drop word.length) else none

section Lists

variable {α : Type} (item : List Char → Option (α × List Char)) (close : Char)

/-- The rest of a list, after one of its items. -/
def parseTail : Nat → List Char → Option (List α × List Char)
  | 0, _ => none
  | n + 1, t =>
    match skip t with
    | [] => none
    | c :: t =>
      if c = close then some ([], t)
      else if c = ',' then
        match item t with
        | none => none
        | some (x, t) => (parseTail n t).map fun p => (x :: p.1, p.2)
      else none

/-- The items of a list, after its opening bracket. -/
def parseList (t : List Char) : Option (List α × List Char) :=
  match skip t with
  | [] => none
  | c :: rest =>
    if c = close then some ([], rest)
    else
      match item (c :: rest) with
      | none => none
      | some (x, t) => (parseTail item close t.length t).map fun p => (x :: p.1, p.2)

end Lists

def parseField (value : List Char → Option (Value × List Char)) (t : List Char) :
    Option ((String × Value) × List Char) :=
  match skip t with
  | '"' :: t =>
    match parseChars t with
    | none => none
    | some (key, t) =>
      match skip t with
      | ':' :: t => (value t).map fun p => ((String.ofList key, p.1), p.2)
      | _ => none
  | _ => none

def parseValue : Nat → List Char → Option (Value × List Char)
  | 0, _ => none
  | n + 1, t =>
    match skip t with
    | [] => none
    | c :: t =>
      if c = '"' then (parseChars t).map fun p => (.str (String.ofList p.1), p.2)
      else if c = '[' then (parseList (parseValue n) ']' t).map fun p => (.arr p.1, p.2)
      else if c = '{' then
        (parseList (parseField (parseValue n)) '}' t).map fun p => (.ofFields p.1, p.2)
      else if c = 'n' then parseLiteral ['u', 'l', 'l'] .null t
      else if c = 't' then parseLiteral ['r', 'u', 'e'] (.bool true) t
      else if c = 'f' then parseLiteral ['a', 'l', 's', 'e'] (.bool false) t
      else parseNumber (c :: t)

def parse (text : String) : Except String Value :=
  match parseValue (text.toList.length + 1) text.toList with
  | some (v, rest) =>
    if skip rest = [] then .ok v else .error "[json.exception.parse_error.101] parse error"
  | none => .error "[json.exception.parse_error.101] parse error"

/-! ## Tokens -/

/-- What follows a number does not continue it. -/
def Ends (r : List Char) : Prop := ∀ c ∈ r.head?, c.isDigit = false ∧ c ≠ '.'

theorem Ends.nil : Ends [] := by simp [Ends]

theorem Ends.cons {c : Char} {r : List Char} (h : c.isDigit = false) (hpoint : c ≠ '.') :
    Ends (c :: r) := by
  simp [Ends, h, hpoint]

theorem not_number_of_isWhite {c : Char} (h : isWhite c = true) : c.isDigit = false ∧ c ≠ '.' := by
  simp only [isWhite, Bool.or_eq_true, beq_iff_eq] at h
  rcases h with ((rfl | rfl) | rfl) | rfl <;> exact ⟨rfl, by decide⟩

/-- White space in front of what ends a number ends it, too. -/
theorem Ends.white {w r : List Char} (hw : ∀ c ∈ w, isWhite c = true) (hr : Ends r) :
    Ends (w ++ r) := by
  cases w with
  | nil => exact hr
  | cons c w =>
    have hc := not_number_of_isWhite (hw c (by simp))
    exact .cons hc.1 hc.2

theorem skip_white {w t : List Char} (hw : ∀ c ∈ w, isWhite c = true) : skip (w ++ t) = skip t :=
  List.dropWhile_append_of_pos hw

theorem skip_cons {c : Char} {t : List Char} (hc : isWhite c = false) : skip (c :: t) = c :: t := by
  simp [skip, hc]

theorem skip_skip (t : List Char) : skip (skip t) = skip t := by
  induction t with
  | nil => rfl
  | cons c t ih =>
    by_cases hc : isWhite c = true
    · rw [show skip (c :: t) = skip t by simp [skip, hc], ih]
    · rw [skip_cons (by simpa using hc), skip_cons (by simpa using hc)]

theorem unicode_control : ∀ n < 32,
    unicode '0' '0' (n / 16).digitChar (n % 16).digitChar = some (Char.ofNat n) := by
  decide

theorem parseChars_unescape {c e : Char} (he : e ≠ 'u') (hc : unescape e = some c)
    (t : List Char) : parseChars ('\\' :: e :: t) = consChar c (parseChars t) := by
  rw [parseChars, hc, Option.bind_some]
  exact fun _ _ _ _ _ h => absurd h he

theorem parseChars_escape (c : Char) (t : List Char) :
    parseChars (escape c ++ t) = consChar c (parseChars t) := by
  unfold escape
  split_ifs with h₁ h₂ h₃ h₄ h₅ h₆ h₇ h₈
  · exact h₁ ▸ parseChars_unescape (e := '"') (by decide) rfl t
  · exact h₂ ▸ parseChars_unescape (e := '\\') (by decide) rfl t
  · exact h₃ ▸ parseChars_unescape (by decide) rfl t
  · exact h₄ ▸ parseChars_unescape (by decide) rfl t
  · exact h₅ ▸ parseChars_unescape (by decide) rfl t
  · exact h₆ ▸ parseChars_unescape (by decide) rfl t
  · exact h₇ ▸ parseChars_unescape (by decide) rfl t
  · have hc : unicode '0' '0' (c.toNat / 16).digitChar (c.toNat % 16).digitChar = some c := by
      rw [unicode_control c.toNat h₈, Char.ofNat_toNat]
    simp [parseChars, hc]
  · rw [List.singleton_append, parseChars, if_neg (by simp [h₂, h₈])]
    · exact h₁
    · exact fun _ _ _ _ _ h => absurd h h₂
    · exact fun _ _ h => absurd h h₂

theorem parseChars_print (s r : List Char) :
    parseChars (s.flatMap escape ++ '"' :: r) = some (s, r) := by
  induction s with
  | nil => rw [List.flatMap_nil, List.nil_append, parseChars]
  | cons c s ih =>
    rw [List.flatMap_cons, List.append_assoc, parseChars_escape, ih]
    rfl

example : parseChars ['a', '\\', 'u', '0', '0', '4', '1', '"', 'b'] = some (['a', 'A'], ['b']) := by
  decide

theorem head?_toDigits {n : Nat} (hn : 0 < n) : (Nat.toDigits 10 n).head? ≠ some '0' := by
  induction n using Nat.strong_induction_on with
  | _ n ih =>
    rw [Nat.toDigits_eq_if (by decide)]
    split
    · simp only [List.head?_cons, ne_eq, Option.some.injEq, Nat.digitChar_eq_zero]
      omega
    · rw [List.head?_append_of_ne_nil _ Nat.toDigits_ne_nil]
      exact ih (n / 10) (by omega) (by omega)

theorem parseDigits_toDigits (n : Nat) {r : List Char} (hr : ∀ c ∈ r.head?, c.isDigit = false) :
    parseDigits (Nat.toDigits 10 n ++ r) = some (n, r) := by
  have hdigits : ∀ c ∈ Nat.toDigits 10 n, c.isDigit = true := fun c hc =>
    Nat.isDigit_of_mem_toDigits (by decide) (by decide) hc
  have hrest : r.takeWhile Char.isDigit = [] ∧ r.dropWhile Char.isDigit = r := by
    cases r with
    | nil => exact ⟨rfl, rfl⟩
    | cons c r => simp [hr c rfl]
  have hzero : (Nat.toDigits 10 n).head? = some '0' → (Nat.toDigits 10 n).length = 1 := by
    rcases Nat.eq_zero_or_pos n with rfl | hn
    · exact fun _ => rfl
    · exact fun h => absurd h (head?_toDigits hn)
  unfold parseDigits
  simp only [List.takeWhile_append_of_pos hdigits, List.dropWhile_append_of_pos hdigits, hrest.1,
    hrest.2, List.append_nil]
  rw [if_neg (by rintro (h | h); exacts [Nat.toDigits_ne_nil h, h.2 (hzero h.1)]),
    Nat.ofDigitChars_ten_toDigits]

/-- A number is printed as a sign, digits and perhaps a decimal. -/
def printNumber (negative : Bool) (whole : Nat) (rest : List Char) : List Char :=
  (if negative then ['-'] else []) ++ (Nat.toDigits 10 whole ++ rest)

theorem toDigits_eq (n : Nat) : ∃ c t, Nat.toDigits 10 n = c :: t ∧ c.isDigit = true := by
  obtain ⟨c, t, h⟩ := List.exists_cons_of_ne_nil (Nat.toDigits_ne_nil (n := n) (b := 10))
  have hc : c ∈ Nat.toDigits 10 n := by simp [h]
  exact ⟨c, t, h, Nat.isDigit_of_mem_toDigits (by decide) (by decide) hc⟩

/-- A printed number starts with a digit or with its sign. -/
theorem printNumber_eq (negative : Bool) (whole : Nat) (rest : List Char) :
    ∃ c t, printNumber negative whole rest = c :: t ∧ (c.isDigit = true ∨ c = '-') := by
  obtain ⟨c, t, h, hc⟩ := toDigits_eq whole
  cases negative with
  | true => exact ⟨'-', _, rfl, .inr rfl⟩
  | false => exact ⟨c, t ++ rest, by simp [printNumber, h], .inl hc⟩

theorem parseSign_print (negative : Bool) (whole : Nat) (rest : List Char) :
    parseSign (printNumber negative whole rest) = (negative, Nat.toDigits 10 whole ++ rest) := by
  cases negative with
  | true => rfl
  | false =>
    obtain ⟨c, t, h, hc⟩ := toDigits_eq whole
    have hsign : c ≠ '-' := by
      rintro rfl
      cases hc
    simp [printNumber, h, parseSign, hsign]

/-- The digits of a number are read up to what cannot be one of them. -/
theorem parseNumber_print (negative : Bool) (whole : Nat) {rest : List Char}
    (hrest : ∀ c ∈ rest.head?, c.isDigit = false) :
    parseNumber (printNumber negative whole rest) = ofDigits negative whole rest := by
  rw [parseNumber, parseSign_print, parseDigits_toDigits whole hrest, Option.bind_some]

theorem printInt_eq (i : Int) (r : List Char) :
    printInt i ++ r = printNumber (decide (i < 0)) i.natAbs r := by
  unfold printInt printNumber
  split
  · rename_i hneg
    simp [hneg]
  · rename_i hneg
    simp [hneg]

theorem printTenths_eq (x : Tenths) (r : List Char) :
    printTenths x ++ r = printNumber x.negative x.whole ('.' :: x.tenth.1.digitChar :: r) := by
  simp [printTenths, printNumber]

theorem natAbs_signed (i : Int) :
    (if decide (i < 0) = true then -(i.natAbs : Int) else i.natAbs) = i := by
  split
  · rename_i hneg
    have := of_decide_eq_true hneg
    omega
  · rename_i hneg
    have := of_decide_eq_false (Bool.not_eq_true _ ▸ hneg)
    omega

theorem inRange_of_bounds {i : Int} (hlow : -2 ^ 63 ≤ i) (hhigh : i < 2 ^ 64) : inRange i = true := by
  rw [inRange, Bool.and_eq_true, decide_eq_true_iff, decide_eq_true_iff]
  exact ⟨hlow, hhigh⟩

theorem parseNumber_int {i : Int} (hlow : -2 ^ 63 ≤ i) (hhigh : i < 2 ^ 64) {r : List Char}
    (hr : Ends r) : parseNumber (printInt i ++ r) = some (.int i, r) := by
  rw [printInt_eq, parseNumber_print _ _ fun c hc => (hr c hc).1, ofDigits]
  · simp only [natAbs_signed, inRange_of_bounds hlow hhigh, if_true]
  · rintro d t rfl
    exact (hr '.' rfl).2 rfl

theorem tenth_digitChar : ∀ d : Fin 10, d.1.digitChar.isDigit = true ∧
    (d.1.digitChar.toNat - 48) % 10 = d.1 := by decide

theorem parseNumber_float (x : Tenths) (r : List Char) :
    parseNumber (printTenths x ++ r) = some (.float x, r) := by
  obtain ⟨hdigit, hvalue⟩ := tenth_digitChar x.tenth
  rw [printTenths_eq, parseNumber_print _ _ (by simp), ofDigits, if_pos hdigit]
  simp only [hvalue]

/-! ## Lists -/

section Lists

variable {α : Type} {item : List Char → Option (α × List Char)} {close : Char}

/-- The text is read as this item, whatever ends it. -/
def Reads (item : List Char → Option (α × List Char)) (text : List Char) (x : α) : Prop :=
  ∀ r, Ends r → item (text ++ r) = some (x, r)

/-- The brackets that close a list. -/
structure Closing (close : Char) : Prop where
  white : isWhite close = false
  digit : close.isDigit = false
  point : close ≠ '.'
  comma : close ≠ ','

/-- What follows an item ends it. -/
theorem ends_tail (text : α → List Char) {w r : List Char} (hclose : Closing close)
    (hw : ∀ c ∈ w, isWhite c = true) (xs : List α) :
    Ends (xs.flatMap (fun x => ',' :: text x) ++ (w ++ close :: r)) := by
  cases xs with
  | nil =>
    rw [List.flatMap_nil, List.nil_append]
    exact .white hw (.cons hclose.digit hclose.point)
  | cons y ys => exact .cons (c := ',') rfl (by decide)

theorem length_tail (text : α → List Char) (close : Char) (w r : List Char) (xs : List α) :
    xs.length < (xs.flatMap (fun x => ',' :: text x) ++ (w ++ close :: r)).length := by
  induction xs with
  | nil => simp
  | cons y ys ih =>
    simp only [List.flatMap_cons, List.length_append, List.length_cons] at ih ⊢
    omega

theorem parseTail_print {text : α → List Char} {w r : List Char} (hclose : Closing close)
    (hw : ∀ c ∈ w, isWhite c = true) :
    ∀ (xs : List α) (n : Nat), (∀ x ∈ xs, Reads item (text x) x) → xs.length < n →
      parseTail item close n (xs.flatMap (fun x => ',' :: text x) ++ (w ++ close :: r)) =
        some (xs, r) := by
  intro xs
  induction xs with
  | nil =>
    intro n _ hn
    obtain ⟨n, rfl⟩ := Nat.exists_eq_succ_of_ne_zero (Nat.ne_of_gt hn)
    simp [parseTail, skip_white hw, skip_cons hclose.white]
  | cons x xs ih =>
    intro n hreads hn
    obtain ⟨n, rfl⟩ := Nat.exists_eq_succ_of_ne_zero (Nat.ne_of_gt (Nat.zero_lt_of_lt hn))
    have hitem := hreads x (by simp) _ (ends_tail (r := r) text hclose hw xs)
    have hrest := ih n (fun y hy => hreads y (by simp [hy])) (by simpa using hn)
    rw [List.flatMap_cons, List.append_assoc, List.cons_append, parseTail,
      skip_cons (by decide)]
    simp only [hclose.comma.symm, if_false, if_true, hitem, hrest]
    rfl

theorem parseList_print {text : α → List Char} {w w' r : List Char}
    (hskip : ∀ t, item (skip t) = item t) (hclose : Closing close)
    (hw : ∀ c ∈ w, isWhite c = true) (hw' : ∀ c ∈ w', isWhite c = true) (x : α) (xs : List α)
    (hreads : ∀ y ∈ x :: xs, Reads item (w ++ text y) y)
    (hstart : ∃ c t, text x = c :: t ∧ isWhite c = false ∧ c ≠ close) :
    parseList item close (w ++ text x ++ (xs.flatMap (fun y => ',' :: (w ++ text y)) ++
      (w' ++ close :: r))) = some (x :: xs, r) := by
  have hends := ends_tail (r := r) (fun y => w ++ text y) hclose hw' xs
  have hhead := hreads x (by simp) _ hends
  have htail := parseTail_print (r := r) hclose hw' xs _
    (fun y hy => hreads y (by simp [hy])) (length_tail (fun y => w ++ text y) close w' r xs)
  obtain ⟨c, t, htext, hwhite, hne⟩ := hstart
  have hskipped : ∀ rest, skip (w ++ text x ++ rest) = c :: (t ++ rest) := by
    intro rest
    rw [List.append_assoc, skip_white hw, htext, List.cons_append, skip_cons hwhite]
  rw [← hskip, hskipped] at hhead
  simp only [parseList, hskipped, hne, if_false, hhead, htail]
  rfl

theorem mem_parseTail {n : Nat} {t r : List Char} {xs : List α}
    (h : parseTail item close n t = some (xs, r)) : ∀ x ∈ xs, ∃ t r, item t = some (x, r) := by
  induction n generalizing t xs with
  | zero => cases h
  | succ n ih =>
    simp only [parseTail] at h
    split at h
    · cases h
    · split_ifs at h
      · cases h
        simp
      · split at h
        · cases h
        · rename_i x rest hitem
          obtain ⟨⟨ys, r'⟩, hp, hxs⟩ := Option.map_eq_some_iff.mp h
          cases hxs
          rintro y (_ | ⟨_, hy⟩)
          · exact ⟨_, rest, hitem⟩
          · exact ih hp y hy

theorem mem_parseList {t r : List Char} {xs : List α}
    (h : parseList item close t = some (xs, r)) : ∀ x ∈ xs, ∃ t r, item t = some (x, r) := by
  simp only [parseList] at h
  split at h
  · cases h
  · split_ifs at h
    · cases h
      simp
    · split at h
      · cases h
      · rename_i x rest hitem
        obtain ⟨⟨ys, r'⟩, hp, hxs⟩ := Option.map_eq_some_iff.mp h
        cases hxs
        rintro y (_ | ⟨_, hy⟩)
        · exact ⟨_, rest, hitem⟩
        · exact mem_parseTail hp y hy

end Lists

/-! ## Values -/

section Values

variable (l : Layout)

def printField (d : Nat) (f : String × Value) : List Char :=
  printString f.1 ++ ':' :: (l.gap ++ print l d f.2)

theorem length_print_le (d : Nat) (f : String × Value) :
    (print l d f.2).length ≤ (printField l d f).length := by
  simp only [printField, List.length_append, List.length_cons]
  omega

theorem printItems_eq (d : Nat) (items : List Value) :
    printItems l d items = items.flatMap fun v => ',' :: (l.line d ++ print l d v) := by
  induction items with
  | nil => rw [printItems, List.flatMap_nil]
  | cons v items ih => simp [printItems, ih]

theorem printFields_eq (d : Nat) (fields : List (String × Value)) :
    printFields l d fields = fields.flatMap fun f => ',' :: (l.line d ++ printField l d f) := by
  induction fields with
  | nil => rw [printFields, List.flatMap_nil]
  | cons f fields ih => simp [printFields, printField, ih]

theorem not_white_of_number {c : Char} (hc : c.isDigit = true ∨ c = '-') :
    isWhite c = false ∧ c ≠ ']' := by
  constructor
  · by_contra hwhite
    have hwhite : isWhite c = true := by simpa using hwhite
    rcases hc with hc | rfl
    · rw [(not_number_of_isWhite hwhite).1] at hc
      cases hc
    · cases hwhite
  · rintro rfl
    rcases hc with hc | hc <;> revert hc <;> decide

/-- A printed value does not start like white space or like the end of a list. -/
theorem print_eq (d : Nat) (v : Value) :
    ∃ c t, print l d v = c :: t ∧ isWhite c = false ∧ c ≠ ']' := by
  cases v with
  | null => exact ⟨'n', _, by rw [print], rfl, by decide⟩
  | bool b => cases b <;> exact ⟨_, _, by rw [print], rfl, by decide⟩
  | int i =>
    obtain ⟨c, t, hprint, hc⟩ := printNumber_eq (decide (i < 0)) i.natAbs []
    rw [← printInt_eq, List.append_nil] at hprint
    exact ⟨c, t, by rw [print, hprint], not_white_of_number hc⟩
  | float x =>
    obtain ⟨c, t, hprint, hc⟩ := printNumber_eq x.negative x.whole ['.', x.tenth.1.digitChar]
    rw [← printTenths_eq, List.append_nil] at hprint
    exact ⟨c, t, by rw [print, hprint], not_white_of_number hc⟩
  | str s => exact ⟨'"', _, by rw [print, printString]; rfl, rfl, by decide⟩
  | arr items =>
    cases items with
    | nil => exact ⟨'[', _, by rw [print], rfl, by decide⟩
    | cons x xs => exact ⟨'[', _, by rw [print]; rfl, rfl, by decide⟩
  | obj fields =>
    cases fields with
    | nil => exact ⟨'{', _, by rw [print], rfl, by decide⟩
    | cons f fs => exact ⟨'{', _, by rw [print]; rfl, rfl, by decide⟩

theorem parseValue_skip (n : Nat) (t : List Char) : parseValue n (skip t) = parseValue n t := by
  cases n with
  | zero => rfl
  | succ n => simp only [parseValue, skip_skip]

theorem parseField_skip (value : List Char → Option (Value × List Char)) (t : List Char) :
    parseField value (skip t) = parseField value t := by
  simp only [parseField, skip_skip]

variable {l}

theorem reads_white {n : Nat} {text w : List Char} {v : Value} (hw : ∀ c ∈ w, isWhite c = true)
    (h : Reads (parseValue n) text v) : Reads (parseValue n) (w ++ text) v := by
  intro r hr
  rw [← parseValue_skip, List.append_assoc, skip_white hw, parseValue_skip]
  exact h r hr

theorem reads_field {n d : Nat} {w : List Char} {f : String × Value}
    (hw : ∀ c ∈ w, isWhite c = true) (h : Reads (parseValue n) (print l d f.2) f.2) :
    Reads (parseField (parseValue n)) (w ++ printField l d f) f := by
  intro r hr
  have hvalue := reads_white l.gap_white h r hr
  have hkey := parseChars_print f.1.toList (':' :: (l.gap ++ print l d f.2 ++ r))
  rw [← parseField_skip, List.append_assoc, skip_white hw, parseField_skip]
  simp only [printField, printString, List.cons_append, List.append_assoc, List.nil_append,
    parseField] at hvalue hkey ⊢
  rw [skip_cons rfl]
  simp only [hkey, hvalue, skip_cons (show isWhite ':' = false from rfl), Option.map_some,
    String.ofList_toList]

theorem length_le_flatMap {α : Type} (text : α → List Char) {x : α} {xs : List α} (h : x ∈ xs) :
    (text x).length ≤ (xs.flatMap text).length :=
  (List.sublist_flatten_of_mem (List.mem_map_of_mem h)).length_le

/-- A number is read where no other value starts. -/
theorem parseValue_number {n : Nat} {c : Char} {t : List Char} (hc : c.isDigit = true ∨ c = '-') :
    parseValue (n + 1) (c :: t) = parseNumber (c :: t) := by
  have hwhite := (not_white_of_number hc).1
  have hne : ∀ x : Char, x.isDigit = false → x ≠ '-' → c ≠ x := by
    rintro x hx hminus rfl
    rcases hc with hc | hc
    · rw [hx] at hc
      cases hc
    · exact hminus hc
  simp only [parseValue, skip_cons hwhite, hne '"' rfl (by decide), hne '[' rfl (by decide),
    hne '{' rfl (by decide), hne 'n' rfl (by decide), hne 't' rfl (by decide),
    hne 'f' rfl (by decide), if_false]

theorem parseValue_printNumber {n : Nat} (hn : 0 < n) (negative : Bool) (whole : Nat)
    (rest : List Char) :
    parseValue n (printNumber negative whole rest) =
      parseNumber (printNumber negative whole rest) := by
  obtain ⟨n, rfl⟩ := Nat.exists_eq_succ_of_ne_zero (Nat.ne_of_gt hn)
  obtain ⟨c, t, hprint, hc⟩ := printNumber_eq negative whole rest
  rw [hprint]
  exact parseValue_number hc

theorem length_print_pos {d : Nat} {v : Value} : 0 < (print l d v).length := by
  obtain ⟨c, t, hprint, -⟩ := print_eq l d v
  simp [hprint]

/-- A canonical value is read back from its text. -/
theorem parseValue_print {v : Value} (h : v.Canonical) :
    ∀ d n, (print l d v).length ≤ n → Reads (parseValue n) (print l d v) v := by
  induction h with
  | null =>
    rintro d (_ | n) hn r -
    · exact absurd hn (Nat.not_le.mpr length_print_pos)
    · rw [print]
      rfl
  | @bool b =>
    rintro d (_ | n) hn r -
    · exact absurd hn (Nat.not_le.mpr length_print_pos)
    · cases b <;> rw [print] <;> rfl
  | @int i hlow hhigh =>
    intro d n hn r hr
    rw [print, ← parseNumber_int hlow hhigh hr, printInt_eq]
    exact parseValue_printNumber (length_print_pos.trans_le hn) _ _ _
  | @float x =>
    intro d n hn r _
    rw [print, ← parseNumber_float, printTenths_eq]
    exact parseValue_printNumber (length_print_pos.trans_le hn) _ _ _
  | @str s =>
    rintro d (_ | n) hn r -
    · exact absurd hn (Nat.not_le.mpr length_print_pos)
    · have hchars := parseChars_print s.toList r
      simp only [print, printString, List.cons_append, List.append_assoc, List.nil_append]
      simp [parseValue, skip_cons (show isWhite '"' = false from rfl), hchars]
  | @arr items _ ih =>
    rintro d (_ | n) hn r -
    · exact absurd hn (Nat.not_le.mpr length_print_pos)
    cases items with
    | nil => rw [print]; rfl
    | cons x xs =>
      rw [print, printItems_eq] at hn ⊢
      have hlength : ∀ y ∈ x :: xs, (print l (d + 1) y).length ≤ n := by
        rintro y (_ | ⟨_, hy⟩)
        · simp only [List.length_append, List.length_cons] at hn
          omega
        · have hle :=
            length_le_flatMap (fun v => ',' :: (l.line (d + 1) ++ print l (d + 1) v)) hy
          simp only [List.length_append, List.length_cons] at hn hle
          omega
      have hlist := parseList_print (r := r) (parseValue_skip n)
        (show Closing ']' from ⟨rfl, rfl, by decide, by decide⟩) (l.line_white (d + 1)) (l.line_white d) x xs
        (fun y hy => reads_white (l.line_white (d + 1)) (ih y hy (d + 1) n (hlength y hy)))
        (print_eq l (d + 1) x)
      simp only [List.cons_append, List.append_assoc, List.nil_append] at hlist ⊢
      simp [parseValue, skip_cons (show isWhite '[' = false from rfl), hlist]
  | @obj fields hsorted _ ih =>
    rintro d (_ | n) hn r -
    · exact absurd hn (Nat.not_le.mpr length_print_pos)
    cases fields with
    | nil => rw [print]; rfl
    | cons f fs =>
      obtain ⟨key, x⟩ := f
      rw [print, printFields_eq] at hn ⊢
      have hlength : ∀ g ∈ (key, x) :: fs, (print l (d + 1) g.2).length ≤ n := by
        rintro g (_ | ⟨_, hg⟩)
        · change (print l (d + 1) x).length ≤ n
          simp only [List.length_append, List.length_cons] at hn
          omega
        · have hle :=
            length_le_flatMap (fun f => ',' :: (l.line (d + 1) ++ printField l (d + 1) f)) hg
          have hfield := length_print_le l (d + 1) g
          simp only [List.length_append, List.length_cons] at hn hle
          omega
      have hlist := parseList_print (r := r) (parseField_skip (parseValue n))
        (show Closing '}' from ⟨rfl, rfl, by decide, by decide⟩) (l.line_white (d + 1)) (l.line_white d) (key, x) fs
        (fun g hg => reads_field (l.line_white (d + 1)) (ih g hg (d + 1) n (hlength g hg)))
        ⟨'"', _, rfl, rfl, by decide⟩
      simp only [printField, List.cons_append, List.append_assoc, List.nil_append] at hlist ⊢
      simp [parseValue, skip_cons (show isWhite '{' = false from rfl), hlist,
        Json.ofFields_sorted hsorted]

theorem value_of_parseField {value : List Char → Option (Value × List Char)} {t r : List Char}
    {f : String × Value} (h : parseField value t = some (f, r)) :
    ∃ t r, value t = some (f.2, r) := by
  unfold parseField at h
  split at h
  · split at h
    · cases h
    · split at h
      · obtain ⟨p, hvalue, hp⟩ := Option.map_eq_some_iff.mp h
        cases hp
        exact ⟨_, _, hvalue⟩
      · cases h
  · cases h

theorem canonical_of_parseNumber {t r : List Char} {v : Value}
    (h : parseNumber t = some (v, r)) : v.Canonical := by
  obtain ⟨p, -, h⟩ := Option.bind_eq_some_iff.mp h
  unfold ofDigits at h
  split at h
  · split_ifs at h
    cases h
    exact .float
  · obtain ⟨hrange, h⟩ := Option.ite_none_right_eq_some.mp h
    cases h
    rw [inRange, Bool.and_eq_true, decide_eq_true_iff, decide_eq_true_iff] at hrange
    exact .int hrange.1 hrange.2

theorem canonical_of_parseLiteral {word t r : List Char} {v x : Value} (hx : x.Canonical)
    (h : parseLiteral word x t = some (v, r)) : v.Canonical := by
  unfold parseLiteral at h
  split_ifs at h
  cases h
  exact hx

/-- What is read of a text is canonical. -/
theorem canonical_of_parseValue {n : Nat} {t r : List Char} {v : Value}
    (h : parseValue n t = some (v, r)) : v.Canonical := by
  induction n generalizing t r v with
  | zero => cases h
  | succ n ih =>
    simp only [parseValue] at h
    split at h
    · cases h
    split_ifs at h
    · obtain ⟨p, -, hp⟩ := Option.map_eq_some_iff.mp h
      cases hp
      exact .str
    · obtain ⟨p, hitems, hp⟩ := Option.map_eq_some_iff.mp h
      cases hp
      refine .arr fun x hx => ?_
      obtain ⟨t, r, hitem⟩ := mem_parseList hitems x hx
      exact ih hitem
    · obtain ⟨p, hfields, hp⟩ := Option.map_eq_some_iff.mp h
      cases hp
      refine Json.canonical_ofFields fun f hf => ?_
      obtain ⟨t, r, hitem⟩ := mem_parseList hfields f hf
      obtain ⟨t', r', hvalue⟩ := value_of_parseField hitem
      exact ih hvalue
    · exact canonical_of_parseLiteral .null h
    · exact canonical_of_parseLiteral .bool h
    · exact canonical_of_parseLiteral .bool h
    · exact canonical_of_parseNumber h

theorem parse_print {v : Value} (h : v.Canonical) :
    parse (String.ofList (print l 0 v)) = .ok v := by
  have hread := parseValue_print (l := l) h 0 ((print l 0 v).length + 1) (Nat.le_succ _) [] .nil
  rw [List.append_nil] at hread
  simp [parse, hread, skip]

end Values

theorem canonical_of_parse {text : String} {v : Value} (h : parse text = .ok v) : v.Canonical := by
  unfold parse at h
  split at h
  · rename_i hvalue
    split_ifs at h
    cases h
    exact canonical_of_parseValue hvalue
  · cases h

def codec : Codec Tenths where
  parse := parse
  dump v := String.ofList (print .compact 0 v)
  dumpIndented v := String.ofList (print .indented 0 v)
  truncate x := if x.negative then -x.whole else x.whole
  parse_canonical := canonical_of_parse
  parse_dump := parse_print
  parse_dumpIndented := parse_print
  parse_empty v h := by simp [parse, parseValue, skip] at h

end JsonText
end WebServer
