import WebServer.Config.Validation
import WebServer.Proxy.Forward

/-!
# WebServer.Proxy.IdentityHeaders

What the backend is told about who the client is. The names that `ClientIpResolver` trusts are
configured; those that `prepare_request` takes out of the request are not.

* `mem_prepareRequest`: the forwarded fields are what the proxy writes and what is left of the
  client's.
* `identityHeaders_iff`: when no configured name reaches the backend with another value than the
  client's address.
-/

namespace WebServer
namespace Forward

open Http

/-- `LogManager::next_request_id`: two numbers of 16 hexadecimal digits. -/
def hex16 (n : UInt64) : Text :=
  (List.range 16).reverse.map fun i => hexDigit (n.toNat / 16 ^ i % 16)

def nextRequestId (requestIdPrefix sequence : UInt64) : Text := hex16 requestIdPrefix ++ hex16 sequence

theorem isValue_close : IsValue (ascii "close") := by decide

def closeField : HeaderField := ⟨connection, ⟨ascii "close", isValue_close⟩⟩

/-- `keep_alive` on a message of version 1.1 without a `Connection` field. -/
def WritesClose (R : Rules) : Prop :=
  ∀ fs, values fs connection.1 = [] →
    R.keepAlive fs true = fs ∧ R.keepAlive fs false = set fs closeField.name closeField.value

/-! ## What is taken out of the request -/

/-- The names that `remove_forwarding_headers` and `strip_hop_headers` erase. -/
def strippedNames (t : Transaction) : List Text :=
  forwardingHeaders ++
    ((connectionTokens t.request.fields).filter fun n =>
      !(t.websocket && iequals n (ascii "upgrade"))) ++
    (if t.websocket then [] else [connection.1, ascii "Upgrade"]) ++
    [ascii "Keep-Alive", ascii "TE", ascii "Trailer", ascii "Proxy-Connection",
      ascii "Proxy-Authenticate", ascii "Proxy-Authorization"]

/-- The client's fields after `strip_hop_headers`. -/
def stripped (t : Transaction) : List HeaderField :=
  stripHopHeaders (removeForwardingHeaders t.request.fields) t.websocket true

/-- The fields that `prepare_request` sets by itself. -/
def alwaysWritten (t : Transaction) : List HeaderField :=
  [⟨host, effectiveBackendHost t.backend (stripped t)⟩, ⟨xRealIp, t.clientIp⟩,
    ⟨xForwardedFor, t.clientIp⟩, ⟨xForwardedProto, t.scheme⟩, ⟨xRequestId, t.requestId⟩]

/-- All fields that `prepare_request` writes. -/
def written (t : Transaction) : List HeaderField :=
  alwaysWritten t ++
    if t.websocket || t.settings.backendKeepAlive && t.backend.keepAlive then [] else [closeField]

/-- A field of the client does not reach the backend. -/
def removed (t : Transaction) (f : HeaderField) : Bool :=
  (strippedNames t).any (fun n => f.named n) ||
    (written t).any (fun g => f.named g.name.1) || (!t.websocket && f.named (ascii "Expect"))

theorem stripped_eq (t : Transaction) :
    stripped t = (strippedNames t).foldl erase t.request.fields := by
  unfold stripped stripHopHeaders strippedNames
  rw [connectionTokens_removeForwardingHeaders, List.foldl_append, List.foldl_append,
    List.foldl_append]
  cases t.websocket with
  | true =>
    simp only [removeForwardingHeaders, if_true, List.foldl_cons, List.foldl_nil]
  | false =>
    simp only [removeForwardingHeaders, if_true, Bool.false_eq_true, if_false, List.foldl_cons,
      List.foldl_nil]

theorem distinct_written (t : Transaction) : Distinct (written t) := by
  unfold written alwaysWritten
  split <;> simp [Distinct, HeaderField.named, closeField] <;> decide

theorem alwaysWritten_named {n : Text}
    (h : ∀ m ∈ [host, xRealIp, xForwardedFor, xForwardedProto, xRequestId], iequals m.1 n = false)
    (t : Transaction) : ∀ f ∈ alwaysWritten t, f.named n = false := by
  simp only [List.mem_cons, List.not_mem_nil, or_false, forall_eq_or_imp, forall_eq] at h
  simp only [alwaysWritten, List.mem_cons, List.not_mem_nil, or_false, forall_eq_or_imp, forall_eq,
    HeaderField.named]
  exact h

section Prepared

variable {R : Rules} {t : Transaction}

/-- No `Connection` field is left when `keep_alive` is called. -/
theorem values_connection_stripped (hw : t.websocket = false) :
    values (setAll (stripped t) (alwaysWritten t)) connection.1 = [] := by
  rw [values_setAll_ne (alwaysWritten_named (by decide) t), stripped_eq, foldl_erase]
  unfold values
  rw [List.filter_filter, List.map_eq_nil_iff, List.filter_eq_nil_iff]
  intro f _ hf
  simp only [Bool.and_eq_true, List.all_eq_true, Bool.not_eq_true'] at hf
  have hmem : connection.1 ∈ strippedNames t := by simp [strippedNames, hw]
  rw [hf.2 _ hmem] at hf
  exact absurd hf.1 (by simp)

theorem fields_prepareRequest (hR : WritesClose R) (hid : t.requestId.1 ≠ []) :
    (prepareRequest R t).fields =
      if t.websocket then setAll (stripped t) (written t)
      else erase (setAll (stripped t) (written t)) (ascii "Expect") := by
  have hset : ∀ g, setAll (stripped t) (alwaysWritten t ++ [g]) =
      set (setAll (stripped t) (alwaysWritten t)) g.name g.value := by
    intro g
    unfold setAll
    rw [List.foldl_append, List.foldl_cons, List.foldl_nil]
  have hfields : (prepareRequest R t).fields =
      if t.websocket then setAll (stripped t) (alwaysWritten t)
      else erase (R.keepAlive (setAll (stripped t) (alwaysWritten t))
        (t.settings.backendKeepAlive && t.backend.keepAlive)) (ascii "Expect") := by
    unfold prepareRequest
    dsimp only
    rw [if_pos hid]
    simp only [setAll, alwaysWritten, stripped, List.foldl_cons, List.foldl_nil]
  rw [hfields, written]
  cases hw : t.websocket with
  | true => simp only [Bool.true_or, if_true, List.append_nil]
  | false =>
    obtain ⟨hkeep, hclose⟩ := hR _ (values_connection_stripped hw)
    cases t.settings.backendKeepAlive && t.backend.keepAlive with
    | true => rw [hkeep, Bool.or_true, if_pos rfl, List.append_nil]
    | false => simp only [hclose, Bool.or_self, Bool.false_eq_true, if_false, hset]

/-- A field reaches the backend when the proxy writes it, or the client sent it and nothing takes it
out. -/
theorem mem_prepareRequest (hR : WritesClose R) (hid : t.requestId.1 ≠ []) {f : HeaderField} :
    f ∈ (prepareRequest R t).fields ↔
      f ∈ t.request.fields ∧ removed t f = false ∨ f ∈ written t := by
  have hstripped : f ∈ stripped t ↔ f ∈ t.request.fields ∧ ∀ n ∈ strippedNames t,
      f.named n = false := by
    rw [stripped_eq, foldl_erase]
    simp
  have hexpect : f ∈ written t → f.named (ascii "Expect") = false := by
    intro hf
    rcases List.mem_append.mp hf with hf | hf
    · exact alwaysWritten_named (by decide) t f hf
    · split at hf
      · cases hf
      · rw [List.mem_singleton.mp hf]
        decide
  have hremoved : removed t f = false ↔ (∀ n ∈ strippedNames t, f.named n = false) ∧
      (∀ g ∈ written t, f.named g.name.1 = false) ∧
      (t.websocket = false → f.named (ascii "Expect") = false) := by
    unfold removed
    rw [Bool.or_eq_false_iff, Bool.or_eq_false_iff, and_assoc]
    simp
  rw [fields_prepareRequest hR hid, hremoved]
  cases hw : t.websocket with
  | true =>
    rw [if_pos rfl, mem_setAll (distinct_written t), hstripped]
    simp [and_assoc]
  | false =>
    rw [if_neg (by simp), mem_erase, mem_setAll (distinct_written t), hstripped]
    constructor
    · rintro ⟨⟨⟨hf, hstrip⟩, hset⟩ | hf, he⟩
      · exact .inl ⟨hf, hstrip, hset, fun _ => he⟩
      · exact .inr hf
    · rintro (⟨hf, hstrip, hset, he⟩ | hf)
      · exact ⟨.inl ⟨⟨hf, hstrip⟩, hset⟩, he rfl⟩
      · exact ⟨.inr hf, hexpect hf⟩

/-- What the proxy writes stands in the request once. -/
theorem values_written (hR : WritesClose R) (hid : t.requestId.1 ≠ []) {f : HeaderField}
    (hf : f ∈ alwaysWritten t) : values (prepareRequest R t).fields f.name.1 = [f.value] := by
  have hset : values (setAll (stripped t) (written t)) f.name.1 = [f.value] :=
    values_setAll (distinct_written t) (List.mem_append_left _ hf)
  rw [fields_prepareRequest hR hid]
  split
  · exact hset
  · rw [values_erase_ne, hset]
    rw [iequals_comm]
    exact alwaysWritten_named (by decide) t f hf

end Prepared

/-! ## Configured names -/

/-- The head tells the backend the client's address, the scheme and the generated id, once each, and
no configured name says anything but the client's address. -/
structure TellsClient (names : List Text) (t : Transaction) (fs : List HeaderField) : Prop where
  realIp : values fs xRealIp.1 = [t.clientIp]
  forwardedFor : values fs xForwardedFor.1 = [t.clientIp]
  proto : values fs xForwardedProto.1 = [t.scheme]
  requestId : values fs xRequestId.1 = [t.requestId]
  configured : ∀ n ∈ names, ∀ v ∈ values fs n, v = t.clientIp

/-- A client's field with a configured name is taken out of the request, or has the client's address
as its value; and no configured name is that of a field that the proxy writes with another value. -/
def Covered (names : List Text) (t : Transaction) : Prop :=
  ∀ n ∈ names, (∀ f ∈ t.request.fields, f.named n = true → removed t f = true ∨ f.value = t.clientIp) ∧
    ∀ f ∈ written t, f.named n = true → f.value = t.clientIp

/-- Whatever names are configured and whatever the client sends: the backend gets no forged identity
exactly if the configured names are covered. -/
theorem identityHeaders_iff (R : Rules) (hR : WritesClose R) (names : List Text) (t : Transaction)
    (hid : ∃ requestIdPrefix sequence, t.requestId.1 = nextRequestId requestIdPrefix sequence) :
    TellsClient names t (prepareRequest R t).fields ↔ Covered names t := by
  have hid : t.requestId.1 ≠ [] := by
    obtain ⟨p, sequence, hid⟩ := hid
    rw [hid]
    simp [nextRequestId, hex16]
  have hvalues : ∀ n v, v ∈ values (prepareRequest R t).fields n ↔
      ∃ f ∈ (prepareRequest R t).fields, f.named n = true ∧ f.value = v := by
    intro n v
    simp [values, and_assoc]
  constructor
  · intro h n hn
    refine ⟨fun f hf hnamed => ?_, fun f hf hnamed => ?_⟩
    · cases hrem : removed t f with
      | true => exact .inl rfl
      | false =>
        exact .inr (h.configured n hn _ ((hvalues n _).mpr
          ⟨f, (mem_prepareRequest hR hid).mpr (.inl ⟨hf, hrem⟩), hnamed, rfl⟩))
    · exact h.configured n hn _ ((hvalues n _).mpr
        ⟨f, (mem_prepareRequest hR hid).mpr (.inr hf), hnamed, rfl⟩)
  · intro h
    refine ⟨?_, ?_, ?_, ?_, fun n hn v hv => ?_⟩
    · exact values_written hR hid (show (⟨xRealIp, t.clientIp⟩ : HeaderField) ∈ _ by simp [alwaysWritten])
    · exact values_written hR hid (show (⟨xForwardedFor, t.clientIp⟩ : HeaderField) ∈ _ by simp [alwaysWritten])
    · exact values_written hR hid (show (⟨xForwardedProto, t.scheme⟩ : HeaderField) ∈ _ by simp [alwaysWritten])
    · exact values_written hR hid (show (⟨xRequestId, t.requestId⟩ : HeaderField) ∈ _ by simp [alwaysWritten])
    · obtain ⟨f, hf, hnamed, rfl⟩ := (hvalues n v).mp hv
      rcases (mem_prepareRequest hR hid).mp hf with ⟨hf, hrem⟩ | hf
      · rcases (h n hn).1 f hf hnamed with hrem' | hvalue
        · rw [hrem] at hrem'
          cases hrem'
        · exact hvalue
      · exact (h n hn).2 f hf hnamed

theorem writesClose_standard : WritesClose .standard := by
  intro fs hnone
  refine ⟨List.filter_eq_self.mpr fun f hf => ?_, rfl⟩
  cases hnamed : f.named connection.1 with
  | false => rfl
  | true =>
    have hmem : f.value ∈ values fs connection.1 :=
      List.mem_map_of_mem (List.mem_filter.mpr ⟨hf, hnamed⟩)
    rw [hnone] at hmem
    cases hmem

def requestIdOne : Value := ⟨nextRequestId 1 1, by decide⟩

/-- The forged fields of the integration test are all taken out. -/
def forgedKnown : Transaction :=
  { postOf [field "Host" "example.com" exampleHost, field "CF-Connecting-IP" "203.0.113.13",
      field "X-Forwarded-For" "203.0.113.9"] with requestId := requestIdOne }

/-- The first of the default names is not on the list of names that are taken out. -/
def forgedEdgeOne : Transaction :=
  { postOf [field "Host" "example.com" exampleHost, field "EO-Connecting-IP" "203.0.113.13"] with
    requestId := requestIdOne }

/-- The default of `real_ip_headers`. -/
def defaultNames : List Text := ({} : Config.RuntimeSettingsRecord).realIpHeaders.map Routing.utf8

theorem identityHeaders_forgedKnown :
    TellsClient defaultNames forgedKnown (prepareRequest .standard forgedKnown).fields := by
  refine (identityHeaders_iff .standard writesClose_standard defaultNames forgedKnown
    ⟨1, 1, rfl⟩).mpr ?_
  unfold Covered
  decide

theorem default_accepted {φ : Type} (lib : Config.Libraries φ) :
    Config.validateRuntimeSettings lib {} = .ok {} := by
  have hnames : (({} : Config.RuntimeSettingsRecord).realIpHeaders.foldlM Config.addHeaderName []) =
      .ok ["x-forwarded-for", "true-client-ip", "cf-connecting-ip", "eo-connecting-ip"] := by
    decide
  have hresolver : Config.clientIpResolver lib {} = .ok () := rfl
  unfold Config.validateRuntimeSettings
  rw [if_neg (by decide), hresolver, Result.ok_bind, if_neg (by decide), if_neg (by decide),
    if_neg (by decide), hnames]
  rfl

/-- With the default settings the client's `EO-Connecting-IP` reaches the backend as it is. -/
theorem identityHeaders_forgedEdgeOne :
    (∀ φ (lib : Config.Libraries φ), Config.validateRuntimeSettings lib {} = .ok {}) ∧
    values (prepareRequest .standard forgedEdgeOne).fields (ascii "EO-Connecting-IP") =
      [⟨ascii "203.0.113.13", by decide⟩] ∧
    forgedEdgeOne.clientIp = ⟨ascii "203.0.113.10", by decide⟩ ∧
    ¬ TellsClient defaultNames forgedEdgeOne (prepareRequest .standard forgedEdgeOne).fields := by
  refine ⟨fun φ lib => default_accepted lib, by decide, rfl, fun h => ?_⟩
  have hforged := h.configured (ascii "EO-Connecting-IP") (by decide)
    ⟨ascii "203.0.113.13", by decide⟩ (by decide)
  exact absurd hforged (by decide)

end Forward
end WebServer
