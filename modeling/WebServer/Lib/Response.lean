import WebServer.Lib.Framing

/-!
# WebServer.Lib.Response

HTTP/1.x responses on the wire, as a client reads them.

* `ResponseHead`, `writeResponseHead`, `readResponseHead`: the status line and the fields.
* `responseFraming`: where the body ends. A client of version 1.0 does not know the chunked coding.
* `readResponse`: the response at the start of the input. A body that only the end of the connection
  ends is not read: as long as the connection stays open it has no end.
-/

namespace WebServer
namespace Http

structure ResponseHead where
  version : Version
  status : Nat
  reason : Text
  fields : List HeaderField
  status_lt : status < 1000
  reason_line : reason.all isLineByte = true
  deriving DecidableEq

/-! ## Heads -/

def writeStatus (n : Nat) : Text :=
  [UInt8.ofNat (48 + n / 100), UInt8.ofNat (48 + n / 10 % 10), UInt8.ofNat (48 + n % 10)]

def readStatus (t : Text) : Option { n : Nat // n < 1000 } :=
  match t with
  | [a, b, c] =>
    let n := (a.toNat - 48) * 100 + (b.toNat - 48) * 10 + (c.toNat - 48)
    if h : t.all (fun b => 48 ≤ b && b ≤ 57) = true ∧ n < 1000 then some ⟨n, h.2⟩ else none
  | _ => none

def writeStatusLine (h : ResponseHead) : Text :=
  h.version.text ++ 32 :: (writeStatus h.status ++ 32 :: h.reason)

def writeResponseHead (h : ResponseHead) : Text :=
  writeStatusLine h ++ (crlf ++ (h.fields.flatMap writeField ++ crlf))

def readStatusLine (line : Text) (fields : List HeaderField) : Option ResponseHead :=
  match cut 32 line with
  | none => none
  | some (v, r) =>
    match cut 32 r with
    | none => none
    | some (s, reason) =>
      match readVersion v, readStatus s with
      | some version, some ⟨status, hs⟩ =>
        if h : reason.all isLineByte = true then some ⟨version, status, reason, fields, hs, h⟩
        else none
      | _, _ => none

def readResponseHead (input : Text) : Option (ResponseHead × Text) :=
  match takeLine input with
  | none => none
  | some (line, rest) =>
    match readFields (rest.length + 1) rest with
    | none => none
    | some (fs, rest') => (readStatusLine line fs).map fun h => (h, rest')

/-- A decimal digit is a plain character and can be read back. -/
theorem decimal_digit : ∀ d < 10, (UInt8.ofNat (48 + d)).toNat = 48 + d ∧
    (48 ≤ UInt8.ofNat (48 + d) && UInt8.ofNat (48 + d) ≤ 57) = true ∧
    isLineByte (UInt8.ofNat (48 + d)) = true ∧ UInt8.ofNat (48 + d) ≠ 32 := by
  decide

theorem readStatus_write (n : Nat) (h : n < 1000) : readStatus (writeStatus n) = some ⟨n, h⟩ := by
  have ha := decimal_digit (n / 100) (by omega)
  have hb := decimal_digit (n / 10 % 10) (by omega)
  have hc := decimal_digit (n % 10) (by omega)
  have hn : (48 + n / 100 - 48) * 100 + (48 + n / 10 % 10 - 48) * 10 + (48 + n % 10 - 48) = n := by
    omega
  simp only [readStatus, writeStatus, ha.1, hb.1, hc.1, hn, List.all_cons, List.all_nil, ha.2.1,
    hb.2.1, hc.2.1, h, Bool.and_self, and_self, dif_pos]

theorem writeStatus_plain (n : Nat) (h : n < 1000) :
    ∀ b ∈ writeStatus n, isLineByte b = true ∧ b ≠ 32 := by
  intro b hb
  simp only [writeStatus, List.mem_cons, List.not_mem_nil, or_false] at hb
  rcases hb with rfl | rfl | rfl
  · exact (decimal_digit (n / 100) (by omega)).2.2
  · exact (decimal_digit (n / 10 % 10) (by omega)).2.2
  · exact (decimal_digit (n % 10) (by omega)).2.2

theorem version_plain (v : Version) : ∀ b ∈ v.text, isLineByte b = true ∧ b ≠ 32 := by
  cases v <;> exact forall_of_all (by decide)

theorem statusLine_lineBytes (h : ResponseHead) : (writeStatusLine h).all isLineByte = true := by
  have hv : h.version.text.all isLineByte = true :=
    List.all_eq_true.mpr fun b hb => (version_plain h.version b hb).1
  have hs : (writeStatus h.status).all isLineByte = true :=
    List.all_eq_true.mpr fun b hb => (writeStatus_plain h.status h.status_lt b hb).1
  simp only [writeStatusLine, List.all_append, List.all_cons, hv, hs, h.reason_line]
  decide

theorem readStatusLine_write (h : ResponseHead) :
    readStatusLine (writeStatusLine h) h.fields = some h := by
  have hv : cut 32 (writeStatusLine h) =
      some (h.version.text, writeStatus h.status ++ 32 :: h.reason) :=
    cut_append (fun b hb => (version_plain h.version b hb).2) _
  have hs : cut 32 (writeStatus h.status ++ 32 :: h.reason) =
      some (writeStatus h.status, h.reason) :=
    cut_append (fun b hb => (writeStatus_plain h.status h.status_lt b hb).2) _
  unfold readStatusLine
  simp only [hv, hs, readVersion_text, readStatus_write h.status h.status_lt]
  rw [dif_pos h.reason_line]

theorem readResponseHead_write (h : ResponseHead) (rest : Text) :
    readResponseHead (writeResponseHead h ++ rest) = some (h, rest) := by
  have hshape : writeResponseHead h ++ rest =
      writeStatusLine h ++ (crlf ++ (h.fields.flatMap writeField ++ (crlf ++ rest))) := by
    simp [writeResponseHead, List.append_assoc]
  unfold readResponseHead
  rw [hshape, takeLine_append (statusLine_lineBytes h)]
  simp only [readFields_write_all, readStatusLine_write, Option.map_some]

/-! ## Bodies -/

/-- A response to `HEAD` has no body, nor has one with such a status. -/
def bodiless (headRequest : Bool) (status : Nat) : Bool :=
  headRequest || status / 100 == 1 || status == 204 || status == 304

inductive ResponseFraming where
  | bodiless
  | length (n : Nat)
  | chunked
  /-- The body ends with the connection. -/
  | untilClose
  deriving DecidableEq

def ResponseFraming.ofFraming : Framing → ResponseFraming
  | .empty => .untilClose
  | .length n => .length n
  | .chunked => .chunked

/-- The fields that a client of this version goes by. -/
def knownFields (client : Version) (fs : List HeaderField) : List HeaderField :=
  match client with
  | .http10 => erase fs transferEncoding.1
  | .http11 => fs

def responseFraming (R : Rules) (headRequest : Bool) (client : Version) (head : ResponseHead) :
    Option ResponseFraming :=
  if bodiless headRequest head.status then some .bodiless
  else (R.framing (knownFields client head.fields)).map .ofFraming

structure Response where
  head : ResponseHead
  body : Text

def readResponseBody (input : Text) : ResponseFraming → Option (Text × Text)
  | .bodiless => some ([], input)
  | .length n => readBody input (.length n)
  | .chunked => readBody input .chunked
  | .untilClose => none

/-- The response at the start of the input, and what follows it. -/
def readResponse (R : Rules) (headRequest : Bool) (client : Version) (input : Text) :
    Option (Response × Text) :=
  match readResponseHead input with
  | none => none
  | some (head, rest) =>
    match responseFraming R headRequest client head with
    | none => none
    | some f => (readResponseBody rest f).map fun p => (⟨head, p.1⟩, p.2)

theorem readResponse_write (R : Rules) {headRequest : Bool} {client : Version}
    {head : ResponseHead} {f : ResponseFraming}
    (hf : responseFraming R headRequest client head = some f) (payload : Text) :
    readResponse R headRequest client (writeResponseHead head ++ payload) =
      (readResponseBody payload f).map fun p => (⟨head, p.1⟩, p.2) := by
  unfold readResponse
  simp only [readResponseHead_write, hf]

end Http
end WebServer
