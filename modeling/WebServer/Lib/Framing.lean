import WebServer.Lib.Wire

/-!
# WebServer.Lib.Framing

Where the body of an HTTP/1.x request ends.

* `Framing` is what a head says about its body; `Rules` is how a parser derives it, together with
  what a message library tells its user about the same head. `Rules` carries the laws that the
  standard gives: only `Content-Length` and `Transfer-Encoding` count, the chunked coding excludes
  a length, and a body that is not chunked is there only because of its length.
* `readRequest` reads one request from a stream of bytes.
* `Rules.standard` is a parser that reads the fields in order and rejects a conflict where it
  meets it.
-/

namespace WebServer
namespace Http

def contentLength : Name := ⟨ascii "Content-Length", by decide⟩
def transferEncoding : Name := ⟨ascii "Transfer-Encoding", by decide⟩
def connection : Name := ⟨ascii "Connection", by decide⟩

inductive Framing where
  | empty
  | length (n : Nat)
  | chunked
  deriving DecidableEq

def HeaderField.isFraming (f : HeaderField) : Bool :=
  f.named contentLength.1 || f.named transferEncoding.1

structure Rules where
  /-- The framing of a request with these fields; `none` when the head is rejected. -/
  framing : List HeaderField → Option Framing
  /-- Whether the message says of itself that it is chunked. -/
  chunked : List HeaderField → Bool
  /-- The fields after the wish to keep the connection has been written into them. -/
  keepAlive : List HeaderField → Bool → List HeaderField
  framing_only : ∀ fs, framing (fs.filter HeaderField.isFraming) = framing fs
  framing_nil : framing [] = some .empty
  no_length : ∀ fs, framing fs = some .chunked → erase fs contentLength.1 = fs
  erase_coding : ∀ fs f, framing fs = some f → f ≠ .chunked →
    framing (erase fs transferEncoding.1) = some f
  erase_length : ∀ fs f, framing fs = some f → f ≠ .chunked →
    framing (erase fs contentLength.1) = some .empty
  chunked_only : ∀ fs, chunked (fs.filter (HeaderField.named transferEncoding.1)) = chunked fs
  chunked_nil : chunked [] = false
  keepAlive_only : ∀ fs keep (p : HeaderField → Bool),
    (∀ f, p f = true → f.named connection.1 = false) →
      (keepAlive fs keep).filter p = fs.filter p

/-- The body at the start of the input, and what follows it. -/
def readBody (input : Text) : Framing → Option (Text × Text)
  | .empty => some ([], input)
  | .length n => if n ≤ input.length then some (input.take n, input.drop n) else none
  | .chunked => readChunks (input.length + 1) input

theorem length_le_chunks (chunks : List Text) :
    chunks.length ≤ (chunks.flatMap writeChunk).length := by
  rw [List.length_flatMap]
  refine List.length_le_sum_of_one_le _ ?_ |>.trans' (by simp)
  simp only [List.mem_map, forall_exists_index, and_imp, forall_apply_eq_imp_iff₂]
  intro c _
  simp only [writeChunk, crlf, List.length_append, List.length_cons]
  omega

/-- A body in chunks is read back, and what follows its last chunk is left. -/
theorem readBody_write_chunks {chunks : List Text} (hc : ∀ c ∈ chunks, c ≠ []) (rest : Text) :
    readBody (chunks.flatMap writeChunk ++ (lastChunk ++ rest)) .chunked =
      some (chunks.flatten, rest) := by
  refine readChunks_write hc rest ?_
  have := length_le_chunks chunks
  simp only [List.length_append]
  omega

structure Request where
  head : Head
  body : Text

/-- The request at the start of the input, and what follows it. -/
def readRequest (R : Rules) (input : Text) : Option (Request × Text) :=
  match readHead input with
  | none => none
  | some (head, rest) =>
    match R.framing head.fields with
    | none => none
    | some f => (readBody rest f).map fun p => (⟨head, p.1⟩, p.2)

theorem readRequest_write (R : Rules) {head : Head} {f : Framing}
    (hf : R.framing head.fields = some f) (payload : Text) :
    readRequest R (writeHead head ++ payload) =
      (readBody payload f).map fun p => (⟨head, p.1⟩, p.2) := by
  unfold readRequest
  simp only [readHead_writeHead, hf]

/-! ## What the laws say about the erased fields -/

section Erased

variable (R : Rules) {fs gs : List HeaderField}

theorem framing_congr
    (h : gs.filter HeaderField.isFraming = fs.filter HeaderField.isFraming) :
    R.framing gs = R.framing fs := by
  rw [← R.framing_only gs, h, R.framing_only]

/-- With both kinds of field erased there is no body. -/
theorem framing_erase_both (fs : List HeaderField) :
    R.framing (erase (erase fs contentLength.1) transferEncoding.1) = some .empty := by
  rw [← R.framing_only, ← R.framing_nil]
  congr 1
  rw [erase, erase, List.filter_filter, List.filter_filter, List.filter_eq_nil_iff]
  intro f _
  cases hc : f.named contentLength.1 <;> cases ht : f.named transferEncoding.1 <;>
    simp [HeaderField.isFraming, hc, ht]

/-- Without its coding a chunked request has no body: it cannot have had a length as well. -/
theorem framing_erase_chunked (h : R.framing fs = some .chunked) :
    R.framing (erase fs transferEncoding.1) = some .empty := by
  have := framing_erase_both R fs
  rwa [R.no_length fs h] at this

end Erased

/-! ## A parser that reads the fields in order -/

namespace Standard

/-- The comma-separated items of a field value. -/
def items (v : Text) : List Text := (v.splitOn 44).map trim

/-- `chunked` stands in the list, once and last. -/
def endsChunked (v : Text) : Bool :=
  match (items v).dropWhile fun t => !iequals t (ascii "chunked") with
  | [_] => true
  | _ => false

def readDecimal (t : Text) : Option Nat :=
  if t ≠ [] ∧ t.all (fun b => 48 ≤ b && b ≤ 57) = true then
    let n := Nat.ofDigits 10 (t.reverse.map fun b => b.toNat - 48)
    if n < 2 ^ 64 then some n else none
  else none

/-- A length may be given several times, as long as it stays the same. -/
def readLength (v : Text) : Option Nat :=
  match (items v).mapM readDecimal with
  | some (n :: ns) => if ns.all (· == n) then some n else none
  | _ => none

structure Seen where
  chunked : Bool
  length : Option Nat

def scan (s : Seen) (f : HeaderField) : Option Seen :=
  if f.named contentLength.1 then
    if s.chunked then none
    else
      match readLength f.value.1 with
      | none => none
      | some n => if s.length.all (· == n) then some { s with length := some n } else none
  else if f.named transferEncoding.1 then
    if s.chunked || s.length.isSome then none
    else some { s with chunked := endsChunked f.value.1 }
  else some s

def Seen.framing (s : Seen) : Framing :=
  if s.chunked then .chunked
  else
    match s.length with
    | some n => .length n
    | none => .empty

def framing (fs : List HeaderField) : Option Framing :=
  (fs.foldlM scan ⟨false, none⟩).map Seen.framing

/-- The last coding of the first field is `chunked`. -/
def chunked (fs : List HeaderField) : Bool :=
  match values fs transferEncoding.1 with
  | [] => false
  | v :: _ => (items v.1).getLast?.any fun t => iequals t (ascii "chunked")

/-- In version 1.1 only the wish to close is written. -/
def keepAlive (fs : List HeaderField) (keep : Bool) : List HeaderField :=
  if keep then erase fs connection.1 else set fs connection ⟨ascii "close", by decide⟩

theorem scan_other {f : HeaderField} (hf : f.isFraming = false) (s : Seen) : scan s f = some s := by
  simp only [HeaderField.isFraming, Bool.or_eq_false_iff] at hf
  simp [scan, hf.1, hf.2]

theorem scan_length {f : HeaderField} (hf : f.named contentLength.1 = true) {s s' : Seen}
    (h : scan s f = some s') : s.chunked = false ∧ s'.chunked = false ∧ s'.length.isSome := by
  simp only [scan, hf, if_true] at h
  split at h
  · cases h
  · rename_i hc
    split at h
    · cases h
    · split at h <;> cases h
      exact ⟨by simpa using hc, by simpa using hc, rfl⟩

theorem scan_coding {f : HeaderField} (hf : f.named transferEncoding.1 = true) {s s' : Seen}
    (h : scan s f = some s') :
    s.chunked = false ∧ s.length = none ∧ s' = ⟨endsChunked f.value.1, none⟩ := by
  have hc : f.named contentLength.1 = false := named_ne (by decide) hf
  simp only [scan, hf, hc, if_true, Bool.false_eq_true, if_false] at h
  split at h
  · cases h
  · rename_i hs
    simp only [Bool.or_eq_true, not_or, Bool.not_eq_true, Option.isSome_eq_false_iff,
      Option.isNone_iff_eq_none] at hs
    cases h
    exact ⟨hs.1, hs.2, by rw [hs.2]⟩

theorem foldlM_filter (s : Seen) (fs : List HeaderField) :
    (fs.filter HeaderField.isFraming).foldlM scan s = fs.foldlM scan s := by
  induction fs generalizing s with
  | nil => rfl
  | cons f fs ih =>
    cases hf : f.isFraming with
    | true =>
      rw [List.filter_cons_of_pos hf, List.foldlM_cons, List.foldlM_cons]
      exact congrArg (scan s f >>= ·) (funext ih)
    | false =>
      rw [List.filter_cons_of_neg (by simp [hf]), ih, List.foldlM_cons, scan_other hf]
      rfl

/-- Once the body is known to be chunked no further framing field is accepted. -/
theorem foldlM_chunked {s s' : Seen} {fs : List HeaderField} (hs : s.chunked = true)
    (h : fs.foldlM scan s = some s') : s' = s := by
  induction fs with
  | nil => cases h; rfl
  | cons f fs ih =>
    rw [List.foldlM_cons, Option.bind_eq_bind, Option.bind_eq_some_iff] at h
    obtain ⟨s₁, h₁, h⟩ := h
    cases hf : f.isFraming with
    | false => rw [scan_other hf] at h₁; cases h₁; exact ih h
    | true =>
      simp only [HeaderField.isFraming, Bool.or_eq_true] at hf
      rcases hf with hf | hf
      · rw [(scan_length hf h₁).1] at hs; cases hs
      · rw [(scan_coding hf h₁).1] at hs; cases hs

/-- A request that is accepted as chunked has no `Content-Length`. -/
theorem no_length {s s' : Seen} {fs : List HeaderField} (h : fs.foldlM scan s = some s')
    (hc : s'.chunked = true) (hs : s.chunked = true → s.length = none) :
    s.length = none ∧ ∀ f ∈ fs, f.named contentLength.1 = false := by
  induction fs generalizing s with
  | nil => cases h; exact ⟨hs hc, by simp⟩
  | cons f fs ih =>
    rw [List.foldlM_cons, Option.bind_eq_bind, Option.bind_eq_some_iff] at h
    obtain ⟨s₁, h₁, h⟩ := h
    cases hf : f.named contentLength.1 with
    | true =>
      obtain ⟨-, hc₁, hl₁⟩ := scan_length hf h₁
      have := (ih h (by rw [hc₁]; simp)).1
      rw [this] at hl₁
      cases hl₁
    | false =>
      cases ht : f.named transferEncoding.1 with
      | true =>
        obtain ⟨-, hl, rfl⟩ := scan_coding ht h₁
        exact ⟨hl, by simpa [hf] using (ih h (fun _ => rfl)).2⟩
      | false =>
        rw [scan_other (by simp [HeaderField.isFraming, hf, ht])] at h₁
        cases h₁
        obtain ⟨hl, hn⟩ := ih h hs
        exact ⟨hl, by simpa [hf] using hn⟩

/-- A coding field of a request that is not chunked in the end did not make it chunked. -/
theorem endsChunked_of_foldlM {v : Text} {s' : Seen} {fs : List HeaderField}
    (h : fs.foldlM scan ⟨endsChunked v, none⟩ = some s') (hc : s'.chunked = false) :
    endsChunked v = false := by
  by_contra hne
  rw [foldlM_chunked (by simpa using hne) h] at hc
  exact hne hc

theorem foldlM_erase_coding {s s' : Seen} {fs : List HeaderField} (h : fs.foldlM scan s = some s')
    (hc : s'.chunked = false) : (erase fs transferEncoding.1).foldlM scan s = some s' := by
  induction fs generalizing s with
  | nil => exact h
  | cons f fs ih =>
    rw [List.foldlM_cons, Option.bind_eq_bind, Option.bind_eq_some_iff] at h
    obtain ⟨s₁, h₁, h⟩ := h
    cases ht : f.named transferEncoding.1 with
    | true =>
      obtain ⟨hs, hl, rfl⟩ := scan_coding ht h₁
      rw [endsChunked_of_foldlM h hc] at h
      rw [erase, List.filter_cons_of_neg (by simp [ht])]
      obtain ⟨c, l⟩ := s
      cases hs
      cases hl
      exact ih h
    | false =>
      rw [erase, List.filter_cons_of_pos (by simp [ht]), List.foldlM_cons, h₁]
      exact ih h

theorem foldlM_erase_length {s s' : Seen} {fs : List HeaderField} (h : fs.foldlM scan s = some s')
    (hc : s'.chunked = false) :
    (erase fs contentLength.1).foldlM scan ⟨false, none⟩ = some ⟨false, none⟩ := by
  induction fs generalizing s with
  | nil => rfl
  | cons f fs ih =>
    rw [List.foldlM_cons, Option.bind_eq_bind, Option.bind_eq_some_iff] at h
    obtain ⟨s₁, h₁, h⟩ := h
    cases hf : f.named contentLength.1 with
    | true =>
      rw [erase, List.filter_cons_of_neg (by simp [hf])]
      exact ih h
    | false =>
      rw [erase, List.filter_cons_of_pos (by simp [hf]), List.foldlM_cons]
      cases ht : f.named transferEncoding.1 with
      | true =>
        obtain ⟨-, -, rfl⟩ := scan_coding ht h₁
        have hscan : scan ⟨false, none⟩ f = some ⟨false, none⟩ := by
          simp [scan, hf, ht, endsChunked_of_foldlM h hc]
        rw [hscan]
        exact ih h
      | false =>
        rw [scan_other (by simp [HeaderField.isFraming, hf, ht])]
        exact ih h

theorem framing_eq_some {fs : List HeaderField} {f : Framing} (h : framing fs = some f) :
    ∃ s, fs.foldlM scan ⟨false, none⟩ = some s ∧ s.framing = f := by
  simpa only [framing, Option.map_eq_some_iff] using h

theorem chunked_of_framing {s : Seen} (h : s.framing = .chunked) : s.chunked = true := by
  unfold Seen.framing at h
  split at h
  · assumption
  · split at h <;> cases h

theorem not_chunked_of_framing {s : Seen} (h : s.framing ≠ .chunked) : s.chunked = false := by
  by_contra hc
  exact h (by simp [Seen.framing, hc])

end Standard

def Rules.standard : Rules where
  framing := Standard.framing
  chunked := Standard.chunked
  keepAlive := Standard.keepAlive
  framing_only fs := by unfold Standard.framing; rw [Standard.foldlM_filter]
  framing_nil := rfl
  no_length fs h := by
    obtain ⟨s, hs, hf⟩ := Standard.framing_eq_some h
    have := (Standard.no_length hs (Standard.chunked_of_framing hf) (by simp)).2
    exact List.filter_eq_self.mpr fun f hm => by simp [this f hm]
  erase_coding fs f h hne := by
    obtain ⟨s, hs, rfl⟩ := Standard.framing_eq_some h
    unfold Standard.framing
    rw [Standard.foldlM_erase_coding hs (Standard.not_chunked_of_framing hne)]
    rfl
  erase_length fs f h hne := by
    obtain ⟨s, hs, rfl⟩ := Standard.framing_eq_some h
    unfold Standard.framing
    rw [Standard.foldlM_erase_length hs (Standard.not_chunked_of_framing hne)]
    rfl
  chunked_only fs := by
    unfold Standard.chunked values
    rw [List.filter_filter]
    simp only [Bool.and_self]
  chunked_nil := rfl
  keepAlive_only fs keep p hp := by
    unfold Standard.keepAlive
    split
    · exact filter_erase hp fs
    · exact filter_set (n := connection) hp fs _

end Http
end WebServer
