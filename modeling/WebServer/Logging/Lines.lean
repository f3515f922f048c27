import WebServer.Lib.Joined
import WebServer.Lib.JsonObject
import WebServer.Lib.Utf8
import WebServer.Logging.Manager

/-!
# WebServer.Logging.Lines

The lines of the log files: `json_escape`, `access_line` and `error_line`.

A line is a flat JSON object that is put together by hand. The texts of an entry are bytes of any
kind: `json_escape` works byte by byte and knows nothing of UTF-8.

* `Doubles`: what the streams and the parser make of a duration.
* `not_mem_line`: a line has no line break.
* `valid_line_iff`: a line is UTF-8 exactly if every text of its entry is.
* `objectText_line`: a line that is UTF-8 is the text of an object with the values of the entry.
-/

namespace WebServer
namespace Logging

open Http (Text)

/-! ## Escapes -/

/-- `hexadecimal[n]` -/
def hexadecimal (n : UInt8) : UInt8 := if n < 10 then 48 + n else 87 + n

/-- The branches of the `switch` in `json_escape`. -/
def escapeByte (b : UInt8) : Text :=
  if b = 34 then [92, 34]
  else if b = 92 then [92, 92]
  else if b = 8 then [92, 98]
  else if b = 12 then [92, 102]
  else if b = 10 then [92, 110]
  else if b = 13 then [92, 114]
  else if b = 9 then [92, 116]
  else if b < 32 then [92, 117, 48, 48, hexadecimal (b >>> 4 &&& 15), hexadecimal (b &&& 15)]
  else [b]

def jsonEscape (t : Text) : Text := t.flatMap escapeByte

theorem escapeByte_high {b : UInt8} (h : 128 ≤ b) : escapeByte b = [b] := by
  have hne : ∀ c : UInt8, c < 128 → b ≠ c := by
    rintro c hc rfl
    exact UInt8.not_le.mpr hc h
  have hlt : ¬ b < 32 := UInt8.not_lt.mpr (UInt8.le_trans (by decide) h)
  simp [escapeByte, hne 34 (by decide), hne 92 (by decide), hne 8 (by decide), hne 12 (by decide),
    hne 10 (by decide), hne 13 (by decide), hne 9 (by decide), hlt]

/-- What is escaped is printable, and so is what is left below 128. -/
theorem escapeByte_ascii : ∀ n < 128, escapeByte (UInt8.ofNat n) ≠ [] ∧
    ∀ c ∈ escapeByte (UInt8.ofNat n), 32 ≤ c ∧ c < 128 := by
  have hall : ∀ n < 128, escapeByte (UInt8.ofNat n) ≠ [] ∧
      ((escapeByte (UInt8.ofNat n)).all fun c => decide (32 ≤ c ∧ c < 128)) = true := by decide
  exact fun n hn => (hall n hn).imp_right Http.forall_of_all

theorem escapeByte_low {b : UInt8} (h : b < 128) :
    escapeByte b ≠ [] ∧ ∀ c ∈ escapeByte b, 32 ≤ c ∧ c < 128 := by
  have hb := escapeByte_ascii b.toNat (UInt8.lt_iff_toNat_lt.mp h)
  rwa [UInt8.ofNat_toNat] at hb

theorem valid_jsonEscape (t : Text) : Utf8.Valid (jsonEscape t) ↔ Utf8.Valid t :=
  Utf8.valid_flatMap (fun _ h => escapeByte_high h)
    (fun _ h => ⟨(escapeByte_low h).1, fun c hc => ((escapeByte_low h).2 c hc).2⟩) t

/-- Nothing below a blank is left. -/
theorem le_of_mem_jsonEscape {t : Text} {c : UInt8} (h : c ∈ jsonEscape t) : 32 ≤ c := by
  obtain ⟨b, -, hc⟩ := List.mem_flatMap.mp h
  by_cases hb : b < 128
  · exact ((escapeByte_low hb).2 c hc).1
  · rw [escapeByte_high (UInt8.not_lt.mp hb), List.mem_singleton] at hc
    rw [hc]
    exact UInt8.le_trans (by decide) (UInt8.not_lt.mp hb)

theorem escapeByte_char : ∀ n < 128,
    escapeByte (UInt8.ofNat n) = Utf8.encode (JsonText.escape (Char.ofNat n)) := by
  decide

theorem escape_high {c : Char} (h : 128 ≤ c.toNat) : JsonText.escape c = [c] := by
  have hne : ∀ d : Char, d.toNat < 128 → c ≠ d := by
    rintro d hd rfl
    omega
  have hlt : ¬ c.toNat < 32 := by omega
  simp [JsonText.escape, hne '"' (by decide), hne '\\' (by decide), hne '\x08' (by decide),
    hne '\x0c' (by decide), hne '\n' (by decide), hne '\r' (by decide), hne '\t' (by decide), hlt]

/-- The bytes of characters are escaped like the characters. -/
theorem jsonEscape_encode (cs : List Char) :
    jsonEscape (Utf8.encode cs) = Utf8.encode (cs.flatMap JsonText.escape) := by
  induction cs with
  | nil => rfl
  | cons c cs ih =>
    rw [Utf8.encode_cons, List.flatMap_cons, Utf8.encode_append, ← ih, jsonEscape, List.flatMap_append]
    congr 1
    rcases Utf8.utf8EncodeChar_cases c with ⟨hc, hone⟩ | ⟨hc, hhigh⟩
    · rw [hone, List.flatMap_singleton, escapeByte_char c.toNat hc, Char.ofNat_toNat]
    · rw [List.flatMap_congr fun b hb => escapeByte_high (hhigh b hb), escape_high hc]
      simp [Utf8.encode]

theorem stringText_escape (c : Char) : JsonText.StringText (JsonText.escape c) [c] := by
  unfold JsonText.escape
  split_ifs with h₁ h₂ h₃ h₄ h₅ h₆ h₇ h₈
  · rw [h₁]
    exact .escaped rfl .nil
  · rw [h₂]
    exact .escaped rfl .nil
  · rw [h₃]
    exact .escaped rfl .nil
  · rw [h₄]
    exact .escaped rfl .nil
  · rw [h₅]
    exact .escaped rfl .nil
  · rw [h₆]
    exact .escaped rfl .nil
  · rw [h₇]
    exact .escaped rfl .nil
  · have hc := JsonText.unicode_control c.toNat h₈
    rw [Char.ofNat_toNat] at hc
    exact .unicode hc .nil
  · exact .plain h₁ h₂ (Nat.not_lt.mp h₈) .nil

/-- The escaped characters stand for the characters. -/
theorem stringText_flatMap_escape (cs : List Char) :
    JsonText.StringText (cs.flatMap JsonText.escape) cs := by
  induction cs with
  | nil => exact .nil
  | cons c cs ih =>
    rw [List.flatMap_cons, ← List.singleton_append]
    exact (stringText_escape c).append ih

/-! ## Numbers and times -/

/-- The doubles of a duration. The digits that are written are enough to read the double back: below
2^43 milliseconds they are those of the duration, and above a double has no more of them. -/
structure Doubles (φ : Type) where
  /-- `static_cast<double>(duration.count()) / 1000.0` -/
  milliseconds : Int64 → φ
  /-- `std::fixed << std::setprecision(3)` -/
  fixed : φ → List Char
  strtod : List Char → φ
  fixed_eq : ∀ n, ∃ negative whole decimals, decimals ≠ [] ∧ (∀ c ∈ decimals, c.isDigit = true) ∧
    fixed (milliseconds n) = JsonText.printNumber negative whole ('.' :: decimals)
  strtod_fixed : ∀ n, strtod (fixed (milliseconds n)) = milliseconds n

/-- `setw(width)` and `setfill('0')`. -/
def padded (width : Nat) (t : List Char) : List Char := List.replicate (width - t.length) '0' ++ t

structure Tm where
  year : Int
  month : Nat
  day : Nat
  hour : Nat
  minute : Nat
  second : Nat
  deriving DecidableEq, Repr

/-- `gmtime_r`. The days are counted from the first of March of the year 0. -/
def gmtime (time : Int) : Tm :=
  let days := time / 86400 + 719468
  let second := (time % 86400).toNat
  let dayOfEra := (days % 146097).toNat
  let yearOfEra :=
    (dayOfEra - dayOfEra / 1460 + dayOfEra / 36524 - dayOfEra / 146096) / 365
  let dayOfYear := dayOfEra - (365 * yearOfEra + yearOfEra / 4 - yearOfEra / 100)
  let fromMarch := (5 * dayOfYear + 2) / 153
  let month := if fromMarch < 10 then fromMarch + 3 else fromMarch - 9
  { year := days / 146097 * 400 + yearOfEra + if month ≤ 2 then 1 else 0
    month
    day := dayOfYear - (153 * fromMarch + 2) / 5 + 1
    hour := second / 3600
    minute := second % 3600 / 60
    second := second % 60 }

/-- The nanoseconds are cut off towards zero, as `to_time_t` and `duration_cast` do. -/
def timestampText (timestamp : Int) : List Char :=
  let utc := gmtime (timestamp.tdiv 1000000000)
  let milliseconds := (timestamp.tdiv 1000000).tmod 1000
  padded 4 (JsonText.printInt utc.year) ++ '-' :: padded 2 (Nat.toDigits 10 utc.month) ++
    '-' :: padded 2 (Nat.toDigits 10 utc.day) ++ 'T' :: padded 2 (Nat.toDigits 10 utc.hour) ++
    ':' :: padded 2 (Nat.toDigits 10 utc.minute) ++ ':' :: padded 2 (Nat.toDigits 10 utc.second) ++
    '.' :: padded 3 (JsonText.printInt milliseconds) ++ ['Z']

/-- The character needs no escape and is one byte. -/
def Plain (c : Char) : Prop := c ≠ '"' ∧ c ≠ '\\' ∧ 32 ≤ c.toNat ∧ c.toNat < 128

instance (c : Char) : Decidable (Plain c) := inferInstanceAs (Decidable (_ ∧ _ ∧ _ ∧ _))

theorem plain_of_isDigit {c : Char} (h : c.isDigit = true) : Plain c := by
  have hrange : 48 ≤ c.toNat ∧ c.toNat ≤ 57 := by
    simpa [Char.isDigit, UInt32.le_iff_toNat_le] using h
  refine ⟨?_, ?_, by omega, by omega⟩
  · rintro rfl
    cases h
  · rintro rfl
    cases h

theorem plain_toDigits (n : Nat) : ∀ c ∈ Nat.toDigits 10 n, Plain c := fun _ hc =>
  plain_of_isDigit (Nat.isDigit_of_mem_toDigits (by decide) (by decide) hc)

theorem plain_printNumber (negative : Bool) (whole : Nat) {rest : List Char}
    (h : ∀ c ∈ rest, Plain c) : ∀ c ∈ JsonText.printNumber negative whole rest, Plain c := by
  intro c hc
  simp only [JsonText.printNumber, List.mem_append] at hc
  rcases hc with hc | hc | hc
  · cases negative with
    | true =>
      rw [List.mem_singleton.mp hc]
      decide
    | false => cases hc
  · exact plain_toDigits whole c hc
  · exact h c hc

theorem plain_printInt (i : Int) : ∀ c ∈ JsonText.printInt i, Plain c := by
  have heq := JsonText.printInt_eq i []
  rw [List.append_nil] at heq
  rw [heq]
  exact plain_printNumber _ _ (by simp)

theorem plain_padded {width : Nat} {t : List Char} (h : ∀ c ∈ t, Plain c) :
    ∀ c ∈ padded width t, Plain c := by
  intro c hc
  rcases List.mem_append.mp hc with hc | hc
  · rw [List.eq_of_mem_replicate hc]
    decide
  · exact h c hc

theorem plain_timestampText (timestamp : Int) : ∀ c ∈ timestampText timestamp, Plain c := by
  intro c hc
  simp only [timestampText, List.mem_append, List.mem_cons, List.not_mem_nil, or_false] at hc
  have hmark : ∀ d : Char, Plain d → c = d → Plain c := fun d hd heq => heq ▸ hd
  rcases hc with ((((((hc | hc) | hc) | hc) | hc) | hc) | hc) | hc
  · exact plain_padded (plain_printInt _) c hc
  · exact hc.elim (hmark '-' (by decide)) (plain_padded (plain_toDigits _) c)
  · exact hc.elim (hmark '-' (by decide)) (plain_padded (plain_toDigits _) c)
  · exact hc.elim (hmark 'T' (by decide)) (plain_padded (plain_toDigits _) c)
  · exact hc.elim (hmark ':' (by decide)) (plain_padded (plain_toDigits _) c)
  · exact hc.elim (hmark ':' (by decide)) (plain_padded (plain_toDigits _) c)
  · exact hc.elim (hmark '.' (by decide)) (plain_padded (plain_printInt _) c)
  · exact hmark 'Z' (by decide) hc

example : timestampText 1709210096789000000 = "2024-02-29T12:34:56.789Z".toList := by decide

/-! ## Lines -/

/-- A field of a line. -/
inductive Field where
  /-- a text that is quoted as it is -/
  | plain (t : List Char)
  | text (t : Text)
  | number (i : Int)
  | duration (n : Int64)

variable {φ : Type} (d : Doubles φ)

def Field.print : Field → Text
  | .plain t => 34 :: (Utf8.encode t ++ [34])
  | .text t => 34 :: (jsonEscape t ++ [34])
  | .number i => Utf8.encode (JsonText.printInt i)
  | .duration n => Utf8.encode (d.fixed (d.milliseconds n))

def printField (f : String × Field) : Text :=
  34 :: (Utf8.encode f.1.toList ++ 34 :: 58 :: f.2.print d)

/-- The object with these fields. -/
def line (fields : List (String × Field)) : Text :=
  123 :: ([44].intercalate (fields.map (printField d)) ++ [125])

inductive ErrorSeverity where
  | info
  | warning
  | error
  | critical
  deriving DecidableEq, Repr

def severityText : ErrorSeverity → List Char
  | .info => ['i', 'n', 'f', 'o']
  | .warning => ['w', 'a', 'r', 'n', 'i', 'n', 'g']
  | .error => ['e', 'r', 'r', 'o', 'r']
  | .critical => ['c', 'r', 'i', 't', 'i', 'c', 'a', 'l']

structure AccessLogEntry where
  requestId : Text
  clientIp : Text
  scheme : Text
  listenerPort : UInt16
  host : Text
  method : Text
  path : Text
  status : UInt32
  responseBytes : UInt64
  duration : Int64
  configRevision : UInt64

structure ErrorLogEntry where
  severity : ErrorSeverity
  component : Text
  message : Text
  requestId : Text

def accessFields (timestamp : Int) (entry : AccessLogEntry) : List (String × Field) :=
  [("timestamp", .plain (timestampText timestamp)),
    ("request_id", .text entry.requestId),
    ("client_ip", .text entry.clientIp),
    ("scheme", .text entry.scheme),
    ("listener_port", .number entry.listenerPort.toNat),
    ("host", .text entry.host),
    ("method", .text entry.method),
    ("path", .text entry.path),
    ("status", .number entry.status.toNat),
    ("response_bytes", .number entry.responseBytes.toNat),
    ("duration_ms", .duration entry.duration),
    ("config_revision", .number entry.configRevision.toNat)]

/-- An empty request id is left out. -/
def errorFields (timestamp : Int) (entry : ErrorLogEntry) : List (String × Field) :=
  [("timestamp", .plain (timestampText timestamp)),
    ("level", .plain (severityText entry.severity)),
    ("component", .text entry.component),
    ("message", .text entry.message)] ++
  if entry.requestId = [] then [] else [("request_id", .text entry.requestId)]

def accessLine (timestamp : Int) (entry : AccessLogEntry) : Text := line d (accessFields timestamp entry)

def errorLine (timestamp : Int) (entry : ErrorLogEntry) : Text := line d (errorFields timestamp entry)

/-- The fields of an event, and the line that `write_event` writes. -/
def eventFields (timestamp : Int) : Event AccessLogEntry ErrorLogEntry → List (String × Field)
  | .access entry => accessFields timestamp entry
  | .error entry => errorFields timestamp entry

def eventLine (timestamp : Int) : Event AccessLogEntry ErrorLogEntry → Text
  | .access entry => accessLine d timestamp entry
  | .error entry => errorLine d timestamp entry

theorem eventLine_eq (timestamp : Int) (event : Event AccessLogEntry ErrorLogEntry) :
    eventLine d timestamp event = line d (eventFields timestamp event) := by
  cases event with
  | access entry => rfl
  | error entry => rfl

/-- The texts of an entry. -/
def texts : Event AccessLogEntry ErrorLogEntry → List Text
  | .access entry =>
    [entry.requestId, entry.clientIp, entry.scheme, entry.host, entry.method, entry.path]
  | .error entry => [entry.component, entry.message, entry.requestId]

/-! ## The entries of requests -/

def maximumLoggedPath : Nat := 4096

/-- What stands before a `?` or a `#`, up to the bound. -/
def sanitizeRequestTarget (target : Text) : Text :=
  let target := target.takeWhile fun b => b ≠ 63 && b ≠ 35
  if target = [] then [47]
  else if maximumLoggedPath < target.length then target.take maximumLoggedPath
  else target

/-- What a `RequestDispatcher` knows of its request. -/
structure Dispatched where
  requestId : Text
  clientIp : Text
  forwardedScheme : Text
  listenerPort : UInt16
  method : Text
  target : Text
  /-- the first `Host` of the request -/
  host : Text
  /-- the result of `normalize_authority`, for a request with one `Host` -/
  normalizedHost : Option Text
  configRevision : UInt64

/-- `RequestDispatcher::log_access` -/
def Dispatched.entry (request : Dispatched) (status : UInt32) (responseBytes : UInt64)
    (duration : Int64) : AccessLogEntry where
  requestId := request.requestId
  clientIp := request.clientIp
  scheme := request.forwardedScheme
  listenerPort := request.listenerPort
  host := request.normalizedHost.getD (request.host.take 512)
  method := request.method
  path := sanitizeRequestTarget request.target
  status := status
  responseBytes := responseBytes
  duration := duration
  configRevision := request.configRevision

/-! ## What a line is -/

def Field.Valid : Field → Prop
  | .text t => Utf8.Valid t
  | _ => True

/-- The field is in order, but for its text. -/
def Field.Fits : Field → Prop
  | .plain t => ∀ c ∈ t, Plain c
  | .text _ => True
  | .number i => -2 ^ 63 ≤ i ∧ i < 2 ^ 64
  | .duration _ => True

/-- The value is the one of the field. -/
def Field.Reads : Field → Json φ → Prop
  | .plain t, v => v = .str (String.ofList t)
  | .text t, v => ∃ s : String, v = .str s ∧ Utf8.encode s.toList = t
  | .number i, v => v = .int i
  | .duration n, v => v = .float (d.milliseconds n)

variable {d}

theorem plain_fixed (n : Int64) : ∀ c ∈ d.fixed (d.milliseconds n), Plain c := by
  obtain ⟨negative, whole, decimals, -, hdigits, heq⟩ := d.fixed_eq n
  rw [heq]
  refine plain_printNumber negative whole fun c hc => ?_
  rcases List.mem_cons.mp hc with rfl | hc
  · decide
  · exact plain_of_isDigit (hdigits c hc)

theorem le_of_mem_encode {cs : List Char} (h : ∀ c ∈ cs, Plain c) {b : UInt8}
    (hb : b ∈ Utf8.encode cs) : 32 ≤ b := by
  obtain ⟨c, hc, hb⟩ := List.mem_flatMap.mp hb
  obtain ⟨-, -, hlow, hhigh⟩ := h c hc
  rcases Utf8.utf8EncodeChar_cases c with ⟨-, hone⟩ | ⟨hlarge, -⟩
  · rw [hone, List.mem_singleton] at hb
    rw [hb, UInt8.le_iff_toNat_le, UInt8.toNat_ofNat', Nat.mod_eq_of_lt (by omega)]
    exact hlow
  · omega

theorem Field.le_of_mem_print {f : Field} (h : f.Fits) {b : UInt8} (hb : b ∈ f.print d) : 32 ≤ b := by
  have hquoted : ∀ t : Text, (∀ c ∈ t, 32 ≤ c) → b ∈ 34 :: (t ++ [34]) → 32 ≤ b := by
    intro t ht hb
    simp only [List.mem_cons, List.mem_append, List.not_mem_nil, or_false] at hb
    rcases hb with rfl | hb | rfl
    · decide
    · exact ht b hb
    · decide
  cases f with
  | plain t => exact hquoted _ (fun _ hc => le_of_mem_encode h hc) hb
  | text t => exact hquoted _ (fun _ hc => le_of_mem_jsonEscape hc) hb
  | number i => exact le_of_mem_encode (plain_printInt i) hb
  | duration n => exact le_of_mem_encode (plain_fixed n) hb

/-- Keys and values that can be put into a line. -/
def FieldFits (f : String × Field) : Prop := (∀ c ∈ f.1.toList, Plain c) ∧ f.2.Fits

theorem le_of_mem_line {fields : List (String × Field)} (h : ∀ f ∈ fields, FieldFits f) {b : UInt8}
    (hb : b ∈ line d fields) : 32 ≤ b := by
  simp only [line, List.mem_cons, List.mem_append, List.not_mem_nil, or_false] at hb
  rcases hb with rfl | hb | rfl
  · decide
  · rcases Joined.mem_intercalate hb with rfl | ⟨t, ht, hb⟩
    · decide
    · obtain ⟨f, hf, rfl⟩ := List.mem_map.mp ht
      obtain ⟨hkey, hvalue⟩ := h f hf
      simp only [printField, List.mem_cons, List.mem_append] at hb
      rcases hb with rfl | hb | rfl | rfl | hb
      · decide
      · exact le_of_mem_encode hkey hb
      · decide
      · decide
      · exact Field.le_of_mem_print hvalue hb
  · decide

theorem fits_eventFields (timestamp : Int) (event : Event AccessLogEntry ErrorLogEntry) :
    ∀ f ∈ eventFields timestamp event, FieldFits f := by
  have hnumber : ∀ n : Nat, n < 2 ^ 64 → (Field.number n).Fits := fun n hn => ⟨by omega, by omega⟩
  have htimestamp : (Field.plain (timestampText timestamp)).Fits := plain_timestampText timestamp
  cases event with
  | access entry =>
    have hport := entry.listenerPort.toNat_lt
    have hstatus := entry.status.toNat_lt
    have hbytes := entry.responseBytes.toNat_lt
    have hrevision := entry.configRevision.toNat_lt
    intro f hf
    simp only [eventFields, accessFields, List.mem_cons, List.not_mem_nil, or_false] at hf
    rcases hf with rfl | rfl | rfl | rfl | rfl | rfl | rfl | rfl | rfl | rfl | rfl | rfl <;>
      refine ⟨Http.forall_of_all (by dsimp only; decide), ?_⟩
    · exact htimestamp
    · trivial
    · trivial
    · trivial
    · exact hnumber _ (by omega)
    · trivial
    · trivial
    · trivial
    · exact hnumber _ (by omega)
    · exact hnumber _ hbytes
    · trivial
    · exact hnumber _ hrevision
  | error entry =>
    have hlevel : (Field.plain (severityText entry.severity)).Fits := by
      cases entry.severity <;> exact Http.forall_of_all (by decide)
    intro f hf
    rcases List.mem_append.mp hf with hf | hf
    · simp only [List.mem_cons, List.not_mem_nil, or_false] at hf
      rcases hf with rfl | rfl | rfl | rfl <;> refine ⟨Http.forall_of_all (by dsimp only; decide), ?_⟩
      · exact htimestamp
      · exact hlevel
      · trivial
      · trivial
    · split at hf
      · cases hf
      · rw [List.mem_singleton.mp hf]
        exact ⟨Http.forall_of_all (by dsimp only; decide), trivial⟩

theorem nodup_eventFields (timestamp : Int) (event : Event AccessLogEntry ErrorLogEntry) :
    ((eventFields timestamp event).map Prod.fst).Nodup := by
  cases event with
  | access entry =>
    simp only [eventFields, accessFields, List.map_cons, List.map_nil]
    decide
  | error entry =>
    simp only [eventFields, errorFields]
    split
    · simp only [List.append_nil, List.map_cons, List.map_nil]
      decide
    · simp only [List.cons_append, List.nil_append, List.map_cons, List.map_nil]
      decide

theorem valid_eventFields_iff (timestamp : Int) (event : Event AccessLogEntry ErrorLogEntry) :
    (∀ f ∈ eventFields timestamp event, f.2.Valid) ↔ ∀ t ∈ texts event, Utf8.Valid t := by
  cases event with
  | access entry =>
    simp [eventFields, accessFields, texts, Field.Valid]
  | error entry =>
    by_cases hempty : entry.requestId = []
    · simp [eventFields, errorFields, texts, Field.Valid, hempty, Utf8.valid_nil]
    · simp [eventFields, errorFields, texts, Field.Valid, hempty]

/-- A line has no line break. -/
theorem not_mem_line {fields : List (String × Field)} (h : ∀ f ∈ fields, FieldFits f) :
    10 ∉ line d fields ∧ 13 ∉ line d fields :=
  ⟨fun hb => absurd (le_of_mem_line h hb) (by decide), fun hb => absurd (le_of_mem_line h hb) (by decide)⟩

theorem valid_cons {b : UInt8} (hb : b < 128) (t : Text) : Utf8.Valid (b :: t) ↔ Utf8.Valid t :=
  Utf8.valid_ascii_append (a := [b]) (by simpa using hb)

theorem valid_quoted (t : Text) : Utf8.Valid (34 :: (t ++ [34])) ↔ Utf8.Valid t := by
  rw [valid_cons (by decide), Utf8.valid_append_cons (by decide)]
  exact and_iff_left Utf8.valid_nil

theorem Field.valid_print (f : Field) : Utf8.Valid (f.print d) ↔ f.Valid := by
  cases f with
  | plain t => exact (valid_quoted _).trans (iff_true_intro (Utf8.valid_encode t))
  | text t => exact (valid_quoted _).trans (valid_jsonEscape t)
  | number i => exact iff_true_intro (Utf8.valid_encode _)
  | duration n => exact iff_true_intro (Utf8.valid_encode _)

theorem valid_printField (f : String × Field) : Utf8.Valid (printField d f) ↔ f.2.Valid := by
  rw [printField, valid_cons (by decide), Utf8.valid_append_cons (by decide), valid_cons (by decide),
    f.2.valid_print]
  exact and_iff_right (Utf8.valid_encode _)

theorem valid_intercalate (ts : List Text) :
    Utf8.Valid ([44].intercalate ts) ↔ ∀ t ∈ ts, Utf8.Valid t := by
  induction ts with
  | nil => simpa using Utf8.valid_nil
  | cons t ts ih =>
    cases ts with
    | nil => simp
    | cons u ts =>
      rw [Joined.intercalate_cons (by simp), Utf8.valid_append_cons (by decide), ih]
      exact List.forall_mem_cons.symm

theorem valid_line_iff (fields : List (String × Field)) :
    Utf8.Valid (line d fields) ↔ ∀ f ∈ fields, f.2.Valid := by
  rw [line, valid_cons (by decide), Utf8.valid_append_cons (by decide), valid_intercalate]
  simp only [List.mem_map, forall_exists_index, and_imp, forall_apply_eq_imp_iff₂, valid_printField]
  exact and_iff_left Utf8.valid_nil

theorem Field.scalarText {f : Field} (hfits : f.Fits) (hvalid : f.Valid) :
    ∃ t v, Utf8.encode t = f.print d ∧ JsonText.ScalarText d.strtod t v ∧ f.Reads d v := by
  have hquoted : ∀ cs : List Char, Utf8.encode ('"' :: (cs ++ ['"'])) = 34 :: (Utf8.encode cs ++ [34]) := by
    intro cs
    rw [Utf8.encode_cons, Utf8.encode_append]
    rfl
  cases f with
  | plain t =>
    refine ⟨_, _, hquoted t, .str (JsonText.stringText_plain fun c hc => ?_), rfl⟩
    exact ⟨(hfits c hc).1, (hfits c hc).2.1, (hfits c hc).2.2.1⟩
  | text t =>
    obtain ⟨cs, rfl⟩ := Utf8.valid_iff.mp hvalid
    refine ⟨_, _, ?_, .str (stringText_flatMap_escape cs), _, rfl, by rw [String.toList_ofList]⟩
    rw [hquoted, ← jsonEscape_encode, Field.print]
  | number i => exact ⟨_, _, rfl, .int hfits.1 hfits.2, rfl⟩
  | duration n =>
    obtain ⟨negative, whole, decimals, hne, hdigits, heq⟩ := d.fixed_eq n
    have hfloat : JsonText.ScalarText d.strtod _ _ := .float negative whole hne hdigits
    rw [← heq, d.strtod_fixed] at hfloat
    exact ⟨_, _, rfl, hfloat, rfl⟩

/-- The field is read as this one. -/
def Shown (d : Doubles φ) (f : String × Field) (p : String × Json φ) : Prop :=
  p.1 = f.1 ∧ f.2.Reads d p.2

theorem fieldText_printField {f : String × Field} (hfits : FieldFits f) (hvalid : f.2.Valid) :
    ∃ t p, Utf8.encode t = printField d f ∧ JsonText.FieldText d.strtod t p ∧ Shown d f p := by
  obtain ⟨t, v, hencode, hscalar, hreads⟩ := Field.scalarText (d := d) hfits.2 hvalid
  have hkey : JsonText.StringText f.1.toList f.1.toList := JsonText.stringText_plain fun c hc =>
    ⟨(hfits.1 c hc).1, (hfits.1 c hc).2.1, (hfits.1 c hc).2.2.1⟩
  refine ⟨_, _, ?_, .mk hkey hscalar, String.ofList_toList, hreads⟩
  rw [printField, ← hencode, Utf8.encode_cons, Utf8.encode_append, Utf8.encode_cons, Utf8.encode_cons]
  rfl

theorem encode_intercalate (ts : List (List Char)) :
    Utf8.encode ([','].intercalate ts) = [44].intercalate (ts.map Utf8.encode) := by
  induction ts with
  | nil => rfl
  | cons t ts ih =>
    cases ts with
    | nil => simp
    | cons u ts =>
      rw [Joined.intercalate_cons (by simp), Utf8.encode_append, Utf8.encode_cons, ih,
        List.map_cons (a := t), Joined.intercalate_cons (by simp)]
      rfl

/-- A line that is UTF-8 is the text of an object with the values of its fields. -/
theorem objectText_line {fields : List (String × Field)} (hfits : ∀ f ∈ fields, FieldFits f)
    (hkeys : (fields.map Prod.fst).Nodup) (hvalid : ∀ f ∈ fields, f.2.Valid) :
    ∃ t values, Utf8.encode t = line d fields ∧
      JsonText.ObjectText d.strtod t (.ofFields values) ∧ List.Forall₂ (Shown d) fields values := by
  have hall : ∃ ts values, ts.map Utf8.encode = fields.map (printField d) ∧
      List.Forall₂ (JsonText.FieldText d.strtod) ts values ∧ List.Forall₂ (Shown d) fields values := by
    clear hkeys
    induction fields with
    | nil => exact ⟨[], [], rfl, .nil, .nil⟩
    | cons f fields ih =>
      obtain ⟨t, p, hencode, htext, hshown⟩ :=
        fieldText_printField (d := d) (hfits f (by simp)) (hvalid f (by simp))
      obtain ⟨ts, values, hencodes, htexts, hall⟩ :=
        ih (fun g hg => hfits g (by simp [hg])) fun g hg => hvalid g (by simp [hg])
      exact ⟨t :: ts, p :: values, by rw [List.map_cons, List.map_cons, hencode, hencodes],
        .cons htext htexts, .cons hshown hall⟩
  obtain ⟨ts, values, hencodes, htexts, hall⟩ := hall
  have hsame : values.map Prod.fst = fields.map Prod.fst := by
    clear hencodes htexts hfits hkeys hvalid
    induction hall with
    | nil => rfl
    | cons hshown _ ih => rw [List.map_cons, List.map_cons, hshown.1, ih]
  refine ⟨_, values, ?_, .mk htexts (hsame ▸ hkeys), hall⟩
  rw [line, ← hencodes, ← encode_intercalate, Utf8.encode_cons, Utf8.encode_append]
  rfl

end Logging
end WebServer
