import WebServer.Lib.Fields
import Mathlib.Data.Nat.Digits.Lemmas

/-!
# WebServer.Lib.Wire

HTTP/1.x request heads and chunked bodies as bytes.

* `writeHead`, `readHead`: a request line, one line for each field, an empty line.
* `writeChunk`, `lastChunk`, `readChunks`: the chunked coding.

`readHead_writeHead` and `readChunks_write` are the round trips: what was written is read back, and
the reader stops exactly where the writer did. `readChunks_length` says that a chunked body is
always longer than what it carries.
-/

namespace WebServer
namespace Http

def crlf : Text := [13, 10]

/-! ## Lines -/

/-- The bytes before the first line end, and those after it. -/
def takeLine : Text → Option (Text × Text)
  | a :: b :: rest =>
    if a = 13 ∧ b = 10 then some ([], rest)
    else (takeLine (b :: rest)).map fun p => (a :: p.1, p.2)
  | _ => none

/-- The bytes before the first `c`, and those after it. -/
def cut (c : UInt8) : Text → Option (Text × Text)
  | [] => none
  | b :: rest => if b = c then some ([], rest) else (cut c rest).map fun p => (b :: p.1, p.2)

theorem takeLine_append {l : Text} (hl : l.all isLineByte = true) (rest : Text) :
    takeLine (l ++ (crlf ++ rest)) = some (l, rest) := by
  induction l with
  | nil => simp [takeLine, crlf]
  | cons a l ih =>
    simp only [List.all_cons, Bool.and_eq_true] at hl
    obtain ⟨b, t, hbt⟩ : ∃ b t, l ++ (crlf ++ rest) = b :: t := by
      cases l with
      | nil => exact ⟨13, _, rfl⟩
      | cons b t => exact ⟨b, _, rfl⟩
    have ha : a ≠ 13 := by
      have := hl.1
      simp only [isLineByte, Bool.and_eq_true, bne_iff_ne, ne_eq] at this
      exact this.1
    have h := ih hl.2
    rw [hbt] at h
    rw [List.cons_append, hbt, takeLine, if_neg (fun hc => ha hc.1), h]
    rfl

theorem takeLine_length {t l rest : Text} (h : takeLine t = some (l, rest)) :
    l.length + rest.length + 2 = t.length := by
  induction t generalizing l with
  | nil => cases h
  | cons a t ih =>
    cases t with
    | nil => cases h
    | cons b t =>
      rw [takeLine] at h
      split at h
      · cases h; simp
      · simp only [Option.map_eq_some_iff, Prod.exists] at h
        obtain ⟨l', r', hl', he⟩ := h
        cases he
        have := ih hl'
        simp only [List.length_cons] at this ⊢
        omega

theorem cut_append {c : UInt8} {l : Text} (hl : ∀ b ∈ l, b ≠ c) (rest : Text) :
    cut c (l ++ c :: rest) = some (l, rest) := by
  induction l with
  | nil => simp [cut]
  | cons b l ih =>
    rw [List.cons_append, cut, if_neg (hl b (by simp)), ih fun x hx => hl x (by simp [hx])]
    rfl

/-- The first occurrence of a separator. -/
theorem append_cons_inj {c : UInt8} {l l' rest rest' : Text} (hl : c ∉ l) (hl' : c ∉ l')
    (h : l ++ c :: rest = l' ++ c :: rest') : l = l' ∧ rest = rest' := by
  have hcut : cut c (l ++ c :: rest) = some (l, rest) :=
    cut_append (fun b hb (hbc : b = c) => hl (hbc ▸ hb)) rest
  have hcut' : cut c (l' ++ c :: rest') = some (l', rest') :=
    cut_append (fun b hb (hbc : b = c) => hl' (hbc ▸ hb)) rest'
  rw [h, hcut'] at hcut
  cases hcut
  exact ⟨rfl, rfl⟩

/-- The last occurrence of a separator. -/
theorem append_cons_inj_last {c : UInt8} {l l' rest rest' : Text} (hrest : c ∉ rest)
    (hrest' : c ∉ rest') (h : l ++ c :: rest = l' ++ c :: rest') : l = l' ∧ rest = rest' := by
  have h := congrArg List.reverse h
  simp only [List.reverse_append, List.reverse_cons, List.append_assoc, List.cons_append,
    List.nil_append] at h
  obtain ⟨hr, hl⟩ := append_cons_inj (by simpa using hrest) (by simpa using hrest') h
  exact ⟨List.reverse_injective hl, List.reverse_injective hr⟩

theorem eq_of_cut {c : UInt8} {t l rest : Text} (h : cut c t = some (l, rest)) :
    t = l ++ c :: rest := by
  induction t generalizing l with
  | nil => cases h
  | cons b t ih =>
    unfold cut at h
    split at h
    · cases h
      simp_all
    · obtain ⟨p, hp, heq⟩ := Option.map_eq_some_iff.mp h
      cases heq
      rw [ih hp, List.cons_append]

theorem cut_some_not_mem {c : UInt8} {t l rest : Text} (h : cut c t = some (l, rest)) : c ∉ l := by
  induction t generalizing l with
  | nil => cases h
  | cons b t ih =>
    simp only [cut] at h
    split at h
    · cases h; simp
    · rename_i hb
      simp only [Option.map_eq_some_iff, Prod.exists, Prod.mk.injEq] at h
      obtain ⟨l', r', hcut, rfl, rfl⟩ := h
      simp [ih hcut, Ne.symm hb]

theorem cut_none_not_mem {c : UInt8} {t : Text} (h : cut c t = none) : c ∉ t := by
  induction t with
  | nil => simp
  | cons b t ih =>
    simp only [cut] at h
    split at h
    · cases h
    · rename_i hb
      simp [ih (by simpa using h), Ne.symm hb]

/-! ## Heads -/

inductive Version where
  | http10
  | http11
  deriving DecidableEq

def Version.text : Version → Text
  | .http10 => ascii "HTTP/1.0"
  | .http11 => ascii "HTTP/1.1"

def readVersion (t : Text) : Option Version :=
  if t = Version.text .http10 then some .http10
  else if t = Version.text .http11 then some .http11
  else none

def IsTarget (t : Text) : Prop := t ≠ [] ∧ t.all (fun b => 33 ≤ b && b != 127) = true

instance (t : Text) : Decidable (IsTarget t) := inferInstanceAs (Decidable (_ ∧ _))

structure Head where
  method : Name
  target : { t : Text // IsTarget t }
  version : Version
  fields : List HeaderField
  deriving DecidableEq

def writeField (f : HeaderField) : Text := f.name.1 ++ ([58, 32] ++ (f.value.1 ++ crlf))

def writeRequestLine (h : Head) : Text :=
  h.method.1 ++ 32 :: (h.target.1 ++ 32 :: h.version.text)

def writeHead (h : Head) : Text :=
  writeRequestLine h ++ (crlf ++ (h.fields.flatMap writeField ++ crlf))

def readField (line : Text) : Option HeaderField :=
  match cut 58 line with
  | none => none
  | some (n, v) =>
    if h : IsName n ∧ IsValue (trim v) then some ⟨⟨n, h.1⟩, ⟨trim v, h.2⟩⟩ else none

/-- The fields up to the empty line, and what follows it. -/
def readFields : Nat → Text → Option (List HeaderField × Text)
  | 0, _ => none
  | fuel + 1, input =>
    match takeLine input with
    | none => none
    | some ([], rest) => some ([], rest)
    | some (b :: line, rest) =>
      match readField (b :: line), readFields fuel rest with
      | some f, some (fs, rest') => some (f :: fs, rest')
      | _, _ => none

def readRequestLine (line : Text) (fields : List HeaderField) : Option Head :=
  match cut 32 line with
  | none => none
  | some (m, r) =>
    match cut 32 r with
    | none => none
    | some (t, v) =>
      match readVersion v with
      | none => none
      | some version =>
        if h : IsName m ∧ IsTarget t then some ⟨⟨m, h.1⟩, ⟨t, h.2⟩, version, fields⟩ else none

def readHead (input : Text) : Option (Head × Text) :=
  match takeLine input with
  | none => none
  | some (line, rest) =>
    match readFields (rest.length + 1) rest with
    | none => none
    | some (fs, rest') => (readRequestLine line fs).map fun h => (h, rest')

theorem name_visible {n : Text} (hn : IsName n) {b : UInt8} (hb : b ∈ n) :
    33 ≤ b ∧ b ≤ 126 ∧ b ≠ 58 := by
  have := List.all_eq_true.mp hn.2 b hb
  simpa [isNameByte, and_assoc] using this

theorem target_visible {t : Text} (ht : IsTarget t) {b : UInt8} (hb : b ∈ t) : 33 ≤ b := by
  have := List.all_eq_true.mp ht.2 b hb
  simp only [Bool.and_eq_true, decide_eq_true_eq] at this
  exact this.1

theorem lineByte_of_visible {b : UInt8} (hb : 33 ≤ b) : isLineByte b = true := by
  simp only [isLineByte, Bool.and_eq_true, bne_iff_ne, ne_eq]
  constructor <;> rintro rfl <;> exact absurd hb (by decide)

theorem ne_space_of_visible {b : UInt8} (hb : 33 ≤ b) : b ≠ 32 := by
  rintro rfl
  exact absurd hb (by decide)

theorem trim_cons_space (v : Text) : trim (32 :: v) = trim v := by
  simp [trim, isSpace]

theorem readField_write (f : HeaderField) :
    readField (f.name.1 ++ ([58, 32] ++ f.value.1)) = some f := by
  have hc : cut 58 (f.name.1 ++ ([58, 32] ++ f.value.1)) = some (f.name.1, 32 :: f.value.1) :=
    cut_append (fun b hb => (name_visible f.name.2 hb).2.2) _
  have ht : trim (32 :: f.value.1) = f.value.1 := by rw [trim_cons_space, f.value.2.2]
  unfold readField
  rw [hc]
  simp only [ht]
  rw [dif_pos ⟨f.name.2, f.value.2⟩]

theorem field_lineBytes (f : HeaderField) :
    (f.name.1 ++ ([58, 32] ++ f.value.1)).all isLineByte = true := by
  rw [List.all_append, List.all_append, f.value.2.1, Bool.and_eq_true]
  refine ⟨List.all_eq_true.mpr fun b hb => ?_, by decide⟩
  exact lineByte_of_visible (name_visible f.name.2 hb).1

theorem readFields_write (fs : List HeaderField) (rest : Text) {fuel : Nat}
    (hf : fs.length < fuel) :
    readFields fuel (fs.flatMap writeField ++ (crlf ++ rest)) = some (fs, rest) := by
  induction fs generalizing fuel with
  | nil =>
    obtain ⟨k, rfl⟩ : ∃ k, fuel = k + 1 := ⟨fuel - 1, by simp at hf; omega⟩
    rw [readFields, List.flatMap_nil, List.nil_append]
    have := takeLine_append (l := []) (by rfl) rest
    rw [List.nil_append] at this
    rw [this]
  | cons f fs ih =>
    simp only [List.length_cons] at hf
    obtain ⟨k, rfl⟩ : ∃ k, fuel = k + 1 := ⟨fuel - 1, by omega⟩
    have hshape : (f :: fs).flatMap writeField ++ (crlf ++ rest) =
        (f.name.1 ++ ([58, 32] ++ f.value.1)) ++
          (crlf ++ (fs.flatMap writeField ++ (crlf ++ rest))) := by
      simp [writeField, List.append_assoc]
    rw [readFields, hshape, takeLine_append (field_lineBytes f)]
    have hread := readField_write f
    -- the name is not empty, so this is not the line that ends the fields
    cases hline : f.name.1 ++ ([58, 32] ++ f.value.1) with
    | nil => simp at hline
    | cons b line =>
      rw [hline] at hread
      simp only [hread, ih (show fs.length < k by omega)]

theorem readFields_length {fuel : Nat} {t rest : Text} {fs : List HeaderField}
    (h : readFields fuel t = some (fs, rest)) : rest.length + 2 ≤ t.length := by
  induction fuel generalizing t fs with
  | zero => cases h
  | succ fuel ih =>
    rw [readFields] at h
    split at h
    · cases h
    · rename_i r hl
      cases h
      have := takeLine_length hl
      omega
    · rename_i b line r hl
      split at h
      · rename_i f fs' r' hf hfs
        cases h
        have := takeLine_length hl
        have := ih hfs
        omega
      · cases h

theorem readVersion_text (v : Version) : readVersion v.text = some v := by
  cases v <;> decide

theorem requestLine_lineBytes (h : Head) : (writeRequestLine h).all isLineByte = true := by
  have hm : h.method.1.all isLineByte = true :=
    List.all_eq_true.mpr fun b hb => lineByte_of_visible (name_visible h.method.2 hb).1
  have ht : h.target.1.all isLineByte = true :=
    List.all_eq_true.mpr fun b hb => lineByte_of_visible (target_visible h.target.2 hb)
  have hv : h.version.text.all isLineByte = true := by cases h.version <;> decide
  simp only [writeRequestLine, List.all_append, List.all_cons, hm, ht, hv]
  decide

theorem readRequestLine_write (h : Head) :
    readRequestLine (writeRequestLine h) h.fields = some h := by
  have hm : cut 32 (writeRequestLine h) = some (h.method.1, h.target.1 ++ 32 :: h.version.text) :=
    cut_append (fun b hb => ne_space_of_visible (name_visible h.method.2 hb).1) _
  have ht : cut 32 (h.target.1 ++ 32 :: h.version.text) = some (h.target.1, h.version.text) :=
    cut_append (fun b hb => ne_space_of_visible (target_visible h.target.2 hb)) _
  unfold readRequestLine
  simp only [hm, ht, readVersion_text]
  rw [dif_pos ⟨h.method.2, h.target.2⟩]

/-- The length of the input bounds the number of its fields. -/
theorem readFields_write_all (fs : List HeaderField) (rest : Text) :
    readFields ((fs.flatMap writeField ++ (crlf ++ rest)).length + 1)
      (fs.flatMap writeField ++ (crlf ++ rest)) = some (fs, rest) := by
  refine readFields_write fs rest ?_
  have : fs.length ≤ (fs.flatMap writeField).length := by
    induction fs with
    | nil => simp
    | cons f fs ih =>
      simp only [List.flatMap_cons, List.length_append, List.length_cons, writeField, crlf]
      omega
  simp only [List.length_append]
  omega

/-- A written head is read back, and the reader stops at its empty line. -/
theorem readHead_writeHead (h : Head) (rest : Text) :
    readHead (writeHead h ++ rest) = some (h, rest) := by
  have hshape : writeHead h ++ rest =
      writeRequestLine h ++ (crlf ++ (h.fields.flatMap writeField ++ (crlf ++ rest))) := by
    simp [writeHead, List.append_assoc]
  unfold readHead
  rw [hshape, takeLine_append (requestLine_lineBytes h)]
  simp only [readFields_write_all, readRequestLine_write, Option.map_some]

/-! ## The chunked coding -/

def hexDigit (d : Nat) : UInt8 := if d < 10 then UInt8.ofNat (48 + d) else UInt8.ofNat (87 + d)

def hexValue (b : UInt8) : Option Nat :=
  if 48 ≤ b ∧ b ≤ 57 then some (b.toNat - 48)
  else if 97 ≤ b ∧ b ≤ 102 then some (b.toNat - 87)
  else if 65 ≤ b ∧ b ≤ 70 then some (b.toNat - 55)
  else none

def writeHex (n : Nat) : Text :=
  if n = 0 then [hexDigit 0] else (Nat.digits 16 n).reverse.map hexDigit

def readHex (t : Text) : Option Nat :=
  if t = [] then none else (t.mapM hexValue).map fun ds => Nat.ofDigits 16 ds.reverse

def writeChunk (data : Text) : Text := writeHex data.length ++ (crlf ++ (data ++ crlf))

def lastChunk : Text := writeHex 0 ++ (crlf ++ crlf)

/-- A chunk size ends at its line end or at the extensions, which are skipped. -/
def readChunkSize (line : Text) : Option Nat :=
  match cut 59 line with
  | some (size, _) => readHex size
  | none => readHex line

/-- The data of the chunks up to the last one and its trailer fields, and what follows. -/
def readChunks : Nat → Text → Option (Text × Text)
  | 0, _ => none
  | fuel + 1, input =>
    match takeLine input with
    | none => none
    | some (line, rest) =>
      match readChunkSize line with
      | none => none
      | some 0 => (readFields (rest.length + 1) rest).map fun p => ([], p.2)
      | some (n + 1) =>
        if (rest.drop (n + 1)).take 2 = crlf then
          (readChunks fuel (rest.drop (n + 3))).map fun p => (rest.take (n + 1) ++ p.1, p.2)
        else none

theorem hexValue_hexDigit {d : Nat} (hd : d < 16) : hexValue (hexDigit d) = some d := by
  interval_cases d <;> decide

theorem hexDigit_plain {d : Nat} (hd : d < 16) :
    isLineByte (hexDigit d) = true ∧ hexDigit d ≠ 59 := by
  interval_cases d <;> decide

theorem mem_writeHex {n : Nat} {b : UInt8} (hb : b ∈ writeHex n) : ∃ d < 16, b = hexDigit d := by
  unfold writeHex at hb
  split at hb
  · exact ⟨0, by omega, by simpa using hb⟩
  · simp only [List.mem_map, List.mem_reverse] at hb
    obtain ⟨d, hd, rfl⟩ := hb
    exact ⟨d, Nat.digits_lt_base (by omega) hd, rfl⟩

theorem mapM_hexDigit {ds : List Nat} (h : ∀ d ∈ ds, d < 16) :
    (ds.map hexDigit).mapM hexValue = some ds := by
  induction ds with
  | nil => rfl
  | cons d ds ih =>
    rw [List.map_cons, List.mapM_cons, hexValue_hexDigit (h d (by simp)),
      ih fun x hx => h x (by simp [hx])]
    rfl

theorem readHex_writeHex (n : Nat) : readHex (writeHex n) = some n := by
  unfold writeHex
  split
  · rename_i hn
    subst hn
    decide
  · rename_i hn
    have hne : (Nat.digits 16 n).reverse.map hexDigit ≠ [] := by
      simp [Nat.digits_ne_nil_iff_ne_zero, hn]
    rw [readHex, if_neg hne, mapM_hexDigit fun d hd =>
      Nat.digits_lt_base (by omega) (List.mem_reverse.mp hd)]
    simp [Nat.ofDigits_digits]

theorem cut_eq_none {c : UInt8} {l : Text} (hl : ∀ b ∈ l, b ≠ c) : cut c l = none := by
  induction l with
  | nil => rfl
  | cons b l ih =>
    rw [cut, if_neg (hl b (by simp)), ih fun x hx => hl x (by simp [hx])]
    rfl

theorem readChunkSize_writeHex (n : Nat) : readChunkSize (writeHex n) = some n := by
  have hcut : cut 59 (writeHex n) = none := by
    refine cut_eq_none fun b hb => ?_
    obtain ⟨d, hd, rfl⟩ := mem_writeHex hb
    exact (hexDigit_plain hd).2
  unfold readChunkSize
  rw [hcut]
  exact readHex_writeHex n

theorem takeLine_writeHex (n : Nat) (rest : Text) :
    takeLine (writeHex n ++ (crlf ++ rest)) = some (writeHex n, rest) := by
  refine takeLine_append (List.all_eq_true.mpr fun b hb => ?_) rest
  obtain ⟨d, hd, rfl⟩ := mem_writeHex hb
  exact (hexDigit_plain hd).1

theorem readChunks_last (fuel : Nat) (rest : Text) :
    readChunks (fuel + 1) (lastChunk ++ rest) = some ([], rest) := by
  have hshape : lastChunk ++ rest = writeHex 0 ++ (crlf ++ (crlf ++ rest)) := by
    simp [lastChunk, List.append_assoc]
  have hend : readFields ((crlf ++ rest).length + 1) (crlf ++ rest) = some ([], rest) :=
    readFields_write [] rest (by simp)
  rw [readChunks, hshape, takeLine_writeHex]
  simp only [readChunkSize_writeHex, hend, Option.map_some]

theorem readChunks_chunk {fuel : Nat} {data rest : Text} (hd : data ≠ []) :
    readChunks (fuel + 1) (writeChunk data ++ rest) =
      (readChunks fuel rest).map fun p => (data ++ p.1, p.2) := by
  obtain ⟨n, hn⟩ : ∃ n, data.length = n + 1 :=
    Nat.exists_eq_succ_of_ne_zero (by simpa using hd)
  have hshape : writeChunk data ++ rest =
      writeHex (n + 1) ++ (crlf ++ (data ++ (crlf ++ rest))) := by
    simp [writeChunk, hn, List.append_assoc]
  rw [readChunks, hshape, takeLine_writeHex]
  have hdrop : (data ++ (crlf ++ rest)).drop (n + 1) = crlf ++ rest := by simp [← hn]
  have htake : (data ++ (crlf ++ rest)).take (n + 1) = data := by simp [← hn]
  have hrest : (data ++ (crlf ++ rest)).drop (n + 3) = rest := by
    rw [show n + 3 = (n + 1) + 2 by omega, ← List.drop_drop, hdrop]
    simp [crlf]
  simp only [readChunkSize_writeHex, hdrop, htake, hrest]
  rw [if_pos (by simp [crlf])]

/-- Chunks that were written are read back, and the reader stops after the last one. -/
theorem readChunks_write {chunks : List Text} (hc : ∀ c ∈ chunks, c ≠ []) (rest : Text)
    {fuel : Nat} (hf : chunks.length < fuel) :
    readChunks fuel (chunks.flatMap writeChunk ++ (lastChunk ++ rest)) =
      some (chunks.flatten, rest) := by
  induction chunks generalizing fuel with
  | nil =>
    obtain ⟨k, rfl⟩ : ∃ k, fuel = k + 1 := ⟨fuel - 1, by simp at hf; omega⟩
    exact readChunks_last k rest
  | cons c chunks ih =>
    simp only [List.length_cons] at hf
    obtain ⟨k, rfl⟩ : ∃ k, fuel = k + 1 := ⟨fuel - 1, by omega⟩
    rw [List.flatMap_cons, List.append_assoc, readChunks_chunk (hc c (by simp)),
      ih (fun x hx => hc x (by simp [hx])) (show chunks.length < k by omega)]
    rfl

/-- The coding costs at least the five bytes of the last chunk. -/
theorem readChunks_length {fuel : Nat} {t data rest : Text}
    (h : readChunks fuel t = some (data, rest)) : data.length + rest.length + 5 ≤ t.length := by
  induction fuel generalizing t data with
  | zero => cases h
  | succ fuel ih =>
    rw [readChunks] at h
    split at h
    · cases h
    rename_i line r hl
    have hlen := takeLine_length hl
    split at h
    · cases h
    · rename_i hsize
      simp only [Option.map_eq_some_iff, Prod.exists, Prod.mk.injEq] at h
      obtain ⟨fs, r', hfs, rfl, rfl⟩ := h
      have := readFields_length hfs
      -- an empty size is not a number
      have hne : line ≠ [] := by
        rintro rfl
        exact absurd hsize (by decide)
      have := List.length_pos_iff.mpr hne
      simp only [List.length_nil]
      omega
    · rename_i n hsize
      split at h
      · simp only [Option.map_eq_some_iff, Prod.exists, Prod.mk.injEq] at h
        obtain ⟨d, r', hr, rfl, rfl⟩ := h
        have := ih hr
        simp only [List.length_append, List.length_take, List.length_drop] at this ⊢
        omega
      · cases h

end Http
end WebServer
