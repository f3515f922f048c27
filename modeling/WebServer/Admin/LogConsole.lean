import WebServer.Admin.Api
import WebServer.Lib.Wire
import WebServer.Logging.Rotation

/-!
# WebServer.Admin.LogConsole

`GET /api/logs/access` and `GET /api/logs/error`: what the console reads of the lines in the log files.

The reader skips a line that it cannot parse, and the parser takes no text that is not UTF-8. The
entries are written byte by byte, so what a client puts into its request decides whether its own entry
is shown.

* `Decoded`: the console reads the values of the entry from its line.
* `log_decoded_iff`: it does so exactly if every text of the entry is UTF-8.
* `shown_recent`: of the entries that are left in the files, the latest are shown in their order.
-/

namespace WebServer
namespace AdminApi

open Http Logging

section Reader

variable {φ : Type}

/-- The line is read as an object that has the fields of the entry and no others. -/
def Decoded (d : Doubles φ) (parse : String → Except String (Json φ)) (fields : List (String × Field))
    (line : Text) : Prop :=
  ∃ values, readLine parse line = some (.ofFields values) ∧ List.Forall₂ (Shown d) fields values

theorem readLine_of_not_valid (parse : String → Except String (Json φ)) {line : Text}
    (h : ¬ Utf8.Valid line) : readLine parse line = none := by
  rw [readLine, Utf8.decode_of_not_valid h]
  rfl

theorem readLine_encode {parse : String → Except String (Json φ)} {t : List Char}
    {values : List (String × Json φ)} (h : parse (String.ofList t) = .ok (.ofFields values)) :
    readLine parse (Utf8.encode t) = some (.ofFields values) := by
  simp only [readLine, Utf8.decode_encode, Option.bind_eq_bind, Option.bind_some, h,
    Json.isObject_ofFields, if_true]

variable {d : Doubles φ} {parse : String → Except String (Json φ)} (timestamp : Int)
  (event : Event AccessLogEntry ErrorLogEntry)

theorem readLine_eventLine_of_not_valid (h : ¬ ∀ t ∈ texts event, Utf8.Valid t) :
    readLine parse (eventLine d timestamp event) = none := by
  refine readLine_of_not_valid parse fun hutf8 => h ?_
  rw [eventLine_eq] at hutf8
  exact (valid_eventFields_iff timestamp event).mp ((valid_line_iff _).mp hutf8)

theorem decoded_eventLine (hparse : JsonText.ReadsObjects d.strtod parse)
    (h : ∀ t ∈ texts event, Utf8.Valid t) :
    Decoded d parse (eventFields timestamp event) (eventLine d timestamp event) := by
  obtain ⟨t, values, hencode, hobject, hshown⟩ := objectText_line (d := d)
    (fits_eventFields timestamp event) (nodup_eventFields timestamp event)
    ((valid_eventFields_iff timestamp event).mpr h)
  rw [eventLine_eq, ← hencode]
  exact ⟨values, readLine_encode (hparse t _ hobject), hshown⟩

end Reader

/-- A line of the log has no line break, and the console reads from it the values of the entry exactly
if every text of the entry is UTF-8. Otherwise it does not show the entry. -/
theorem log_decoded_iff {φ : Type} (d : Doubles φ) {parse : String → Except String (Json φ)}
    (hparse : JsonText.ReadsObjects d.strtod parse) (timestamp : Int)
    (event : Event AccessLogEntry ErrorLogEntry) :
    ((10 ∉ eventLine d timestamp event ∧ 13 ∉ eventLine d timestamp event ∧
        Decoded d parse (eventFields timestamp event) (eventLine d timestamp event)) ↔
      ∀ t ∈ texts event, Utf8.Valid t) ∧
    ((¬ ∀ t ∈ texts event, Utf8.Valid t) → readLine parse (eventLine d timestamp event) = none) := by
  refine ⟨⟨?_, fun htexts => ?_⟩, readLine_eventLine_of_not_valid timestamp event⟩
  · rintro ⟨-, -, values, hread, -⟩
    by_contra hnot
    rw [readLine_eventLine_of_not_valid timestamp event hnot] at hread
    cases hread
  · obtain ⟨hfeed, hreturn⟩ := not_mem_line (d := d) (fits_eventFields timestamp event)
    rw [← eventLine_eq] at hfeed hreturn
    exact ⟨hfeed, hreturn, decoded_eventLine timestamp event hparse htexts⟩

/-- An entry and what is shown of it. -/
def ShownAs {φ : Type} (d : Doubles φ) (e : Int × Event AccessLogEntry ErrorLogEntry) (item : Json φ) :
    Prop :=
  ∃ values, item = .ofFields values ∧ List.Forall₂ (Shown d) (eventFields e.1 e.2) values

/-- The lines that cannot be read are passed over. -/
theorem filterMap_readLine {φ : Type} {d : Doubles φ} {parse : String → Except String (Json φ)}
    (hparse : JsonText.ReadsObjects d.strtod parse)
    (entries : List (Int × Event AccessLogEntry ErrorLogEntry)) :
    List.Forall₂ (ShownAs d) (entries.filter fun e => ∀ t ∈ texts e.2, Utf8.Valid t)
      ((entries.map fun e => eventLine d e.1 e.2).filterMap (readLine parse)) := by
  induction entries with
  | nil => exact .nil
  | cons e entries ih =>
    rw [List.map_cons]
    by_cases hvalid : ∀ t ∈ texts e.2, Utf8.Valid t
    · obtain ⟨values, hread, hshown⟩ := decoded_eventLine e.1 e.2 hparse hvalid
      rw [List.filter_cons_of_pos (by simpa using hvalid), List.filterMap_cons_some hread]
      exact .cons ⟨values, rfl, hshown⟩ ih
    · rw [List.filter_cons_of_neg (by simpa using hvalid),
        List.filterMap_cons_none (readLine_eventLine_of_not_valid e.1 e.2 hvalid)]
      exact ih

/-- Whatever entries have been written into a log, the console asks for the latest of those that are
left in the files and shows them in their order, but for the ones with a text that is not UTF-8. -/
theorem shown_recent {φ : Type} (d : Doubles φ) {parse : String → Except String (Json φ)}
    (hparse : JsonText.ReadsObjects d.strtod parse) {options : LogOptions}
    (hcheck : options.check = .ok ()) (entries : List (Int × Event AccessLogEntry ErrorLogEntry))
    (hshort : Short (entries.map fun e => eventLine d e.1 e.2)) :
    ∃ file, (openFile fun _ => none).writeLines options
        (entries.map fun e => Line.ofEvent d e.1 e.2) = .ok file ∧
      ∀ maximumLines, 0 < maximumLines → maximumLines ≤ 100000 →
        ∃ lines latest, file.recentLines options maximumLines = .ok lines ∧ latest <:+ entries ∧
          latest.length = min maximumLines (file.retained options).length ∧
          List.Forall₂ (ShownAs d) (latest.filter fun e => ∀ t ∈ texts e.2, Utf8.Valid t)
            (lines.filterMap (readLine parse)) := by
  have hcount := LogOptions.rotated_of_check hcheck
  obtain ⟨file, segments, hwrite, hlogged⟩ := logged_openFile.writeLines hcount
    (entries.map fun e => Line.ofEvent d e.1 e.2)
  have hkept := Logged.kept (by simpa using hlogged) hcount
  have htexts : (entries.map fun e => Line.ofEvent d e.1 e.2).map Line.text =
      entries.map fun e => eventLine d e.1 e.2 := by
    rw [List.map_map]
    rfl
  have hsuffix := htexts ▸ hkept.suffix
  refine ⟨file, hwrite, fun maximumLines hpos hle => ?_⟩
  obtain ⟨lines, hrecent, hlines, hlength⟩ := hkept.recent maximumLines hpos hle
    fun line hline => hshort line (hsuffix.subset hline)
  -- the lines are those of a suffix of the entries
  obtain ⟨latest, hlatest, rfl⟩ := List.suffix_map_iff.mp (hlines.trans hsuffix)
  rw [List.length_map] at hlength
  exact ⟨_, latest, hrecent, hlatest, hlength, filterMap_readLine hparse latest⟩

/-! ## Requests -/

namespace LogConsole

/-- Doubles by their decimal digits. -/
def decimals : Doubles (List Char) where
  milliseconds n := JsonText.printNumber (n.toInt < 0) (n.toInt.natAbs / 1000)
    ('.' :: padded 3 (Nat.toDigits 10 (n.toInt.natAbs % 1000)))
  fixed := id
  strtod := id
  fixed_eq n := by
    refine ⟨_, _, _, by simp [padded, Nat.toDigits_ne_nil], fun c hc => ?_, rfl⟩
    rcases List.mem_append.mp hc with hc | hc
    · rw [List.eq_of_mem_replicate hc]
      rfl
    · exact Nat.isDigit_of_mem_toDigits (by decide) (by decide) hc
  strtod_fixed _ := rfl

def request (target : { t : Text // IsTarget t }) : Dispatched where
  requestId := ascii "00000000000000010000000000000001"
  clientIp := ascii "192.0.2.1"
  forwardedScheme := ascii "http"
  listenerPort := 80
  method := ascii "GET"
  target := target.1
  host := ascii "a.test"
  normalizedHost := some (ascii "a.test")
  configRevision := 1

def event (target : { t : Text // IsTarget t }) : Event AccessLogEntry ErrorLogEntry :=
  .access ((request target).entry 200 5 1234)

end LogConsole

open LogConsole in
/-- A target with a quote and two bytes of a letter is read back. -/
theorem log_decoded_quoted :
    (∀ t ∈ texts (event ⟨[47, 34, 195, 169], by decide⟩), Utf8.Valid t) ∧
      Decoded decimals (JsonText.parseObject id) (eventFields 0 (event ⟨[47, 34, 195, 169], by decide⟩))
        (eventLine decimals 0 (event ⟨[47, 34, 195, 169], by decide⟩)) := by
  have hvalid : ∀ t ∈ texts (event ⟨[47, 34, 195, 169], by decide⟩), Utf8.Valid t := by decide
  have hread := (log_decoded_iff decimals (JsonText.readsObjects_parseObject id) 0
    (event ⟨[47, 34, 195, 169], by decide⟩)).1.mpr hvalid
  exact ⟨hvalid, hread.2.2⟩

open LogConsole in
/-- The entry of a client that asks for a target with the byte 255 is not shown. -/
theorem invalidTarget_hidden :
    ¬ ∀ (timestamp : Int) (target : { t : Text // IsTarget t }),
      10 ∉ eventLine decimals timestamp (event target) ∧
      13 ∉ eventLine decimals timestamp (event target) ∧
      Decoded decimals (JsonText.parseObject id) (eventFields timestamp (event target))
        (eventLine decimals timestamp (event target)) := by
  intro h
  obtain ⟨-, -, values, hread, -⟩ := h 0 ⟨[47, 255], by decide⟩
  have hpath : ¬ Utf8.Valid [47, 255] := by decide
  have hnone : readLine (JsonText.parseObject (φ := List Char) id)
      (eventLine decimals 0 (event ⟨[47, 255], by decide⟩)) = none :=
    readLine_eventLine_of_not_valid 0 _ fun hvalid => hpath (hvalid _
      (show [47, 255] ∈ texts (event ⟨[47, 255], by decide⟩) by decide))
  rw [hnone] at hread
  cases hread

end AdminApi
end WebServer
