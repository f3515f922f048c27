import WebServer.Network.ClientIp

/-!
# WebServer.Http.HeaderRead

`on_header_read` of `HttpSession` and `TlsHttpSession`: the client address of a request, from its
header fields. Both sessions have the same loop over the configured names; a name is looked up with
`find`, which gives the first field of that name.

* `clientIp_eq_joined_iff`: with several `X-Forwarded-For` lines the address is that of the whole
  list exactly if the first line decides it.
-/

namespace WebServer
namespace Session

open Http Network

/-- The loop over `header_priority()`. -/
def realIpHeaders (headerPriority : List Text) (fields : List HeaderField) : List (Text × Text) :=
  headerPriority.filterMap fun name => (values fields name).head?.map fun value => (name, value.1)

def clientIp (lib : AddressText) (r : ClientIpResolver) (peer : Address)
    (fields : List HeaderField) : Text :=
  resolve lib r peer (realIpHeaders r.headerPriority fields)

def forwardedFor : Text := ascii "X-Forwarded-For"

/-- The values of all `X-Forwarded-For` lines, in order, as one list. -/
def joinedForwardedFor (fields : List HeaderField) : Text :=
  [44].intercalate ((values fields forwardedFor).map fun value => value.1)

/-! ## One list from several lines -/

/-- The lines are lists of addresses, line by line. -/
def AreAddressLists (lib : AddressText) (values : List Value) (lines : List (List Address)) : Prop :=
  List.Forall₂ (fun value addresses => IsAddressList lib value.1 addresses) values lines

/-- The joined value is the list of all the addresses. -/
theorem isAddressList_joined {lib : AddressText} {vs : List Value} {lines : List (List Address)}
    (h : AreAddressLists lib vs lines) (hne : vs ≠ []) :
    IsAddressList lib ([44].intercalate (vs.map fun value => value.1)) lines.flatten := by
  induction h with
  | nil => exact absurd rfl hne
  | @cons v addresses vs lines hv hrest ih =>
    cases vs with
    | nil =>
      cases hrest
      simpa using hv
    | cons w vs =>
      have hjoined : [44].intercalate ((v :: w :: vs).map fun value => value.1) =
          v.1 ++ 44 :: [44].intercalate ((w :: vs).map fun value => value.1) := by
        simp [List.intercalate_cons_cons]
      have ih := ih (by simp)
      unfold IsAddressList at hv ih ⊢
      rw [hjoined, List.splitOn_append_cons_self, List.map_append, hv, ih, List.flatten_cons,
        List.map_append]

section

variable {lib : AddressText} {r : ClientIpResolver} {peer : Address} {fields : List HeaderField}

theorem values_of_iequals {m n : Text} (h : iequals m n = true) (fields : List HeaderField) :
    values fields m = values fields n := by
  have hnamed : (fun f : HeaderField => f.named m) = fun f => f.named n := by
    funext f
    unfold HeaderField.named
    rw [iequals_comm, iequals_comm f.name.1 n]
    exact iequals_trans h
  unfold values
  rw [show HeaderField.named m = HeaderField.named n from hnamed]

/-- No other real-IP header is there, so the list begins with the first line. -/
theorem realIpHeaders_eq {value : Value} {rest : List Value}
    (hvalues : values fields forwardedFor = value :: rest) {headerPriority : List Text}
    (honly : ∀ name ∈ headerPriority, iequals name forwardedFor = false → values fields name = [])
    (hconfigured : ∃ name ∈ headerPriority, iequals name forwardedFor = true) :
    ∃ name after, iequals name forwardedFor = true ∧
      realIpHeaders headerPriority fields = (name, value.1) :: after := by
  induction headerPriority with
  | nil => simp at hconfigured
  | cons name names ih =>
    unfold realIpHeaders
    rw [List.filterMap_cons]
    cases hname : iequals name forwardedFor with
    | true =>
      rw [values_of_iequals hname, hvalues]
      exact ⟨name, _, hname, rfl⟩
    | false =>
      rw [honly name (by simp) hname]
      apply ih
      · exact fun name hmem => honly name (by simp [hmem])
      · obtain ⟨name', hmem, hname'⟩ := hconfigured
        rcases List.mem_cons.mp hmem with rfl | hmem
        · rw [hname] at hname'
          cases hname'
        · exact ⟨name', hmem, hname'⟩

theorem realIpHeaders_nil {headerPriority : List Text}
    (honly : ∀ name ∈ headerPriority, iequals name forwardedFor = false → values fields name = [])
    (hvalues : values fields forwardedFor = []) : realIpHeaders headerPriority fields = [] := by
  unfold realIpHeaders
  rw [List.filterMap_eq_nil_iff]
  intro name hmem
  cases hname : iequals name forwardedFor with
  | true => rw [values_of_iequals hname, hvalues]; rfl
  | false => rw [honly name hmem hname]; rfl

/-- The later lines change nothing: of the first 64 addresses, the right-most untrusted one behind
the first line is also the right-most untrusted one of the first line, if there is any. -/
def FirstLineDecides (r : ClientIpResolver) (lines : List (List Address)) : Prop :=
  ∀ u, rightmostUntrusted r.isTrusted ((lines.flatten.take 64).drop (lines.headD []).length) = some u →
    rightmostUntrusted r.isTrusted ((lines.headD []).take 64) = some u

/-- A trusted peer sends any number of `X-Forwarded-For` lines of addresses, and no other real-IP
header. The client address is that of the joined list exactly if the first line decides. -/
theorem clientIp_eq_joined_iff (lib : AddressText) (r : ClientIpResolver) (peer : Address)
    (fields : List HeaderField) (lines : List (List Address)) (hpeer : r.isTrusted peer = true)
    (hconfigured : ∃ name ∈ r.headerPriority, iequals name forwardedFor = true)
    (honly : ∀ name ∈ r.headerPriority, iequals name forwardedFor = false →
      values fields name = [])
    (hlines : AreAddressLists lib (values fields forwardedFor) lines) :
    clientIp lib r peer fields =
        resolve lib r peer [(forwardedFor, joinedForwardedFor fields)] ↔
      FirstLineDecides r lines := by
  unfold clientIp joinedForwardedFor
  cases hvalues : values fields forwardedFor with
  | nil =>
    rw [hvalues] at hlines
    cases hlines
    rw [realIpHeaders_nil honly hvalues]
    simp [resolve, headerIp, FirstLineDecides, rightmostUntrusted]
  | cons value rest =>
    have hjoined := isAddressList_joined hlines (by simp [hvalues])
    rw [hvalues] at hlines hjoined
    obtain ⟨name, after, hname, heq⟩ := realIpHeaders_eq hvalues honly hconfigured
    cases hlines with
    | @cons _ addresses _ lines hvalue hrest =>
      have hfirst : resolve lib r peer ([] ++ (name, value.1) :: after) =
          lib.toText (client r.isTrusted peer (addresses.take 64)) :=
        resolve_forwarded hpeer (by simp) hname hvalue
      have hall : resolve lib r peer ([] ++ [(forwardedFor, _)]) =
          lib.toText (client r.isTrusted peer ((addresses :: lines).flatten.take 64)) :=
        resolve_forwarded hpeer (by simp) (iequals_self forwardedFor) hjoined
      have htake : ((addresses :: lines).flatten.take 64).take addresses.length =
          addresses.take 64 := by
        rw [List.take_take, List.flatten_cons, Nat.min_comm, ← List.take_take, List.take_left]
      have hpos : 0 < addresses.length := List.length_pos_iff.mpr hvalue.ne_nil
      have hsame : client r.isTrusted peer
          (((addresses :: lines).flatten.take 64).take addresses.length) = _ ↔ _ :=
        client_take_iff peer addresses.length ((addresses :: lines).flatten.take 64) hpos
      rw [htake] at hsame
      rw [List.nil_append] at hfirst hall
      rw [heq, hfirst, hall]
      exact ⟨fun h => hsame.mp (lib.toText_inj h), fun h => by rw [hsame.mpr h]⟩

end

/-! ## Two lines -/

namespace TwoLines

def line (value : String) (h : IsValue (ascii value) := by decide) : HeaderField :=
  ⟨⟨ascii "X-Forwarded-For", by decide⟩, ⟨ascii value, h⟩⟩

/-- The second line has only the address of another proxy. -/
def proxied : List HeaderField := [line "198.51.100.10", line "10.2.3.4"]

/-- The client sends a line of its own; the proxy adds one with the address it saw. -/
def forged : List HeaderField := [line "203.0.113.9", line "198.51.100.7"]

end TwoLines

theorem clientIp_proxied :
    clientIp .dotted Forged.resolver (.v4 0x7f000001) TwoLines.proxied =
      resolve .dotted Forged.resolver (.v4 0x7f000001)
        [(forwardedFor, joinedForwardedFor TwoLines.proxied)] :=
  (clientIp_eq_joined_iff .dotted Forged.resolver (.v4 0x7f000001) TwoLines.proxied
    [[.v4 0xc633640a], [.v4 0x0a020304]] (by decide) ⟨forwardedFor, by decide, by decide⟩
    (by decide) (.cons (by decide) (.cons (by decide) .nil))).mpr
    fun u hu => by
      have hnone : rightmostUntrusted Forged.resolver.isTrusted [.v4 0x0a020304] = none := by decide
      exact absurd (hu.symm.trans hnone) (by simp)

/-- The client's own line hides the one that the proxy added. -/
theorem clientIp_forged :
    Forged.resolver.isTrusted (.v4 0x7f000001) = true ∧
    Forged.resolver.headerPriority = [forwardedFor] ∧
    AreAddressLists .dotted (values TwoLines.forged forwardedFor)
      [[.v4 0xcb007109], [.v4 0xc6336407]] ∧
    clientIp .dotted Forged.resolver (.v4 0x7f000001) TwoLines.forged = ascii "203.0.113.9" ∧
    resolve .dotted Forged.resolver (.v4 0x7f000001)
      [(forwardedFor, joinedForwardedFor TwoLines.forged)] = ascii "198.51.100.7" ∧
    clientIp .dotted Forged.resolver (.v4 0x7f000001) TwoLines.forged ≠
      resolve .dotted Forged.resolver (.v4 0x7f000001)
        [(forwardedFor, joinedForwardedFor TwoLines.forged)] := by
  refine ⟨by decide, rfl, .cons (by decide) (.cons (by decide) .nil),
    by decide, by decide, by decide⟩

end Session
end WebServer
