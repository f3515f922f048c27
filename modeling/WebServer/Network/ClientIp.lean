import WebServer.Network.Address

/-!
# WebServer.Network.ClientIp

`ClientIpResolver`: which address a request is taken to come from.

The headers that name the client are read only when the peer is a trusted proxy. Each proxy appends
the address it saw to `X-Forwarded-For`, so the client is the right-most address of the list that is
not a proxy (`client`). The code reads the list from the left and stops after 64 addresses
(`scanChain`), then walks what it has from the right (`walk`).

* `walk_reverse`: walking a chain finds `client` of that chain.
* `scanChain_addresses`: the chain of a list of addresses is its first 64.
* `resolve_forwarded`: so `resolve` finds `client` of the first 64 addresses.
-/

namespace WebServer
namespace Network

open Http

structure ClientIpResolver where
  ranges : List Range
  headerPriority : List Text
  deriving DecidableEq

def ClientIpResolver.make (lib : AddressText) (trustedProxyCidrs headerPriority : List Text) :
    Except Text ClientIpResolver := do
  let ranges ← trustedProxyCidrs.mapM (parseRange lib)
  return ⟨ranges, headerPriority⟩

def ClientIpResolver.isTrusted (r : ClientIpResolver) (a : Address) : Bool :=
  r.ranges.any fun range => contains range a

def parseIp (lib : AddressText) (value : Text) : Option Address :=
  let value := trim value
  if value = [] then none else lib.makeAddress value

/-- The loop over the pieces between commas. A piece that is no address clears the chain. -/
def scanChain (lib : AddressText) : List Text → List Address → List Address
  | [], chain => chain
  | piece :: rest, chain =>
    if 64 ≤ chain.length then chain
    else
      match parseIp lib piece with
      | none => []
      | some a => scanChain lib rest (chain ++ [a])

/-- The loop from `chain.rbegin()`. -/
def walk (trusted : Address → Bool) (current : Address) : List Address → Address
  | [] => current
  | a :: rest => if trusted current then walk trusted a rest else current

/-- What one header of the list gives, `none` when the loop goes on to the next. -/
def headerIp (lib : AddressText) (r : ClientIpResolver) (peer : Address) (name value : Text) :
    Option Text :=
  if value = [] then none
  else if iequals name (ascii "X-Forwarded-For") then
    let chain := scanChain lib (value.splitOn 44) []
    let current := walk r.isTrusted peer chain.reverse
    if chain ≠ [] then some (lib.toText current) else none
  else (parseIp lib value).map lib.toText

def resolve (lib : AddressText) (r : ClientIpResolver) (peer : Address)
    (headers : List (Text × Text)) : Text :=
  if r.isTrusted peer = false then lib.toText peer
  else (headers.findSome? fun h => headerIp lib r peer h.1 h.2).getD (lib.toText peer)

/-! ## The client of a list of addresses -/

def rightmostUntrusted (trusted : Address → Bool) (addresses : List Address) : Option Address :=
  addresses.reverse.find? fun a => !trusted a

/-- The right-most untrusted address, the left-most when all are trusted. -/
def client (trusted : Address → Bool) (peer : Address) (addresses : List Address) : Address :=
  (rightmostUntrusted trusted addresses).getD (addresses.headD peer)

/-- The value is a comma-separated list of these addresses. -/
def IsAddressList (lib : AddressText) (value : Text) (addresses : List Address) : Prop :=
  (value.splitOn 44).map (parseIp lib) = addresses.map some

instance (lib : AddressText) (value : Text) (addresses : List Address) :
    Decidable (IsAddressList lib value addresses) :=
  inferInstanceAs (Decidable (_ = _))

section Client

variable {trusted : Address → Bool}

theorem rightmostUntrusted_append (front back : List Address) :
    rightmostUntrusted trusted (front ++ back) =
      (rightmostUntrusted trusted back).or (rightmostUntrusted trusted front) := by
  simp only [rightmostUntrusted, List.reverse_append, List.find?_append]

theorem rightmostUntrusted_some {addresses : List Address} {a : Address}
    (h : rightmostUntrusted trusted addresses = some a) : trusted a = false := by
  have ha := List.find?_some h
  simpa using ha

theorem rightmostUntrusted_none {addresses : List Address} :
    rightmostUntrusted trusted addresses = none ↔ ∀ a ∈ addresses, trusted a = true := by
  simp [rightmostUntrusted, List.find?_eq_none]

theorem walk_eq (l : List Address) : ∀ current, trusted current = true →
    walk trusted current l = (l.find? fun a => !trusted a).getD (l.getLastD current) := by
  induction l with
  | nil => intro current _; rfl
  | cons a rest ih =>
    intro current hcurrent
    simp only [walk, hcurrent, if_true, List.find?_cons]
    cases ha : trusted a with
    | true => rw [ih a ha, List.getLastD_cons]; rfl
    | false =>
      -- the walk is at an untrusted address, where its next step stops
      cases rest with
      | nil => rfl
      | cons b rest => simp [walk, ha]

theorem walk_reverse {peer : Address} (hpeer : trusted peer = true) (chain : List Address) :
    walk trusted peer chain.reverse = client trusted peer chain := by
  rw [walk_eq _ _ hpeer, client, rightmostUntrusted]
  simp [List.getLastD_eq_getLast?, List.headD_eq_head?_getD]

/-- What stands before an untrusted address cannot be seen. -/
theorem client_append (peer : Address) (front : List Address) {u : Address} {back : List Address}
    (hu : trusted u = false) (hback : ∀ a ∈ back, trusted a = true) :
    client trusted peer (front ++ u :: back) = u := by
  have hlast : rightmostUntrusted trusted (u :: back) = some u := by
    rw [← List.singleton_append, rightmostUntrusted_append, rightmostUntrusted_none.mpr hback]
    simp [rightmostUntrusted, hu]
  rw [client, rightmostUntrusted_append, hlast]
  rfl

/-- Dropping the addresses after the `n`-th keeps the client exactly when the right-most untrusted of
those dropped is the one that is left. -/
theorem client_take_iff (peer : Address) (n : Nat) (addresses : List Address) (hn : 0 < n) :
    client trusted peer (addresses.take n) = client trusted peer addresses ↔
      ∀ u, rightmostUntrusted trusted (addresses.drop n) = some u →
        rightmostUntrusted trusted (addresses.take n) = some u := by
  have hhead : (addresses.take n).headD peer = addresses.headD peer := by
    cases addresses with
    | nil => simp
    | cons a rest => obtain ⟨m, rfl⟩ := Nat.exists_eq_add_of_lt hn; simp
  have hsplit : rightmostUntrusted trusted addresses =
      (rightmostUntrusted trusted (addresses.drop n)).or
        (rightmostUntrusted trusted (addresses.take n)) := by
    rw [← rightmostUntrusted_append, List.take_append_drop]
  rw [client, client, hhead, hsplit]
  cases hdrop : rightmostUntrusted trusted (addresses.drop n) with
  | none => simp
  | some u =>
    have hu := rightmostUntrusted_some hdrop
    cases htake : rightmostUntrusted trusted (addresses.take n) with
    | some v => simp
    | none =>
      -- the left-most address is among those kept, all trusted
      have hall := rightmostUntrusted_none.mp htake
      simp only [Option.getD_none, Option.some_or, Option.getD_some, Option.some.injEq, reduceCtorEq,
        forall_eq', iff_false]
      intro hcontra
      cases addresses with
      | nil => simp [rightmostUntrusted] at hdrop
      | cons a rest =>
        obtain ⟨m, rfl⟩ := Nat.exists_eq_add_of_lt hn
        have ha := hall a (by simp)
        simp only [List.headD_cons] at hcontra
        rw [hcontra, hu] at ha
        cases ha

end Client

/-! ## The scan -/

variable {lib : AddressText} {r : ClientIpResolver} {peer : Address}

theorem scanChain_addresses : ∀ (addresses : List Address) (pieces : List Text)
    (chain : List Address), pieces.map (parseIp lib) = addresses.map some → chain.length ≤ 64 →
    scanChain lib pieces chain = (chain ++ addresses).take 64 := by
  intro addresses
  induction addresses with
  | nil =>
    intro pieces chain h hchain
    simp only [List.map_nil, List.map_eq_nil_iff] at h
    rw [h, scanChain, List.append_nil, List.take_of_length_le hchain]
  | cons a rest ih =>
    intro pieces chain h hchain
    cases pieces with
    | nil => simp at h
    | cons piece pieces =>
      simp only [List.map_cons, List.cons.injEq] at h
      rw [scanChain, h.1]
      by_cases hfull : 64 ≤ chain.length
      · have heq : chain.length = 64 := by omega
        simp [heq]
      · simp only [hfull, if_false]
        rw [ih pieces (chain ++ [a]) h.2 (by simp; omega), List.append_assoc, List.singleton_append]

theorem IsAddressList.ne_nil {value : Text} {addresses : List Address}
    (h : IsAddressList lib value addresses) : addresses ≠ [] := by
  intro hnil
  rw [IsAddressList, hnil, List.map_nil, List.map_eq_nil_iff] at h
  exact List.splitOn_ne_nil 44 value h

theorem IsAddressList.value_ne_nil {value : Text} {addresses : List Address}
    (h : IsAddressList lib value addresses) : value ≠ [] := by
  rintro rfl
  cases addresses with
  | nil => exact h.ne_nil rfl
  | cons a rest => simp [IsAddressList, parseIp, trim] at h

theorem headerIp_forwarded (hpeer : r.isTrusted peer = true) {name value : Text}
    {addresses : List Address} (hname : iequals name (ascii "X-Forwarded-For") = true)
    (hvalue : IsAddressList lib value addresses) :
    headerIp lib r peer name value =
      some (lib.toText (client r.isTrusted peer (addresses.take 64))) := by
  have hscan := scanChain_addresses addresses (value.splitOn 44) [] hvalue (by simp)
  have hne : addresses.take 64 ≠ [] := by simpa using hvalue.ne_nil
  simp only [headerIp, hvalue.value_ne_nil, hname, if_true, if_false, hscan, List.nil_append,
    walk_reverse hpeer, ne_eq, hne, not_false_eq_true]

/-- The headers of higher priority give no address, so the list decides. -/
theorem resolve_forwarded (hpeer : r.isTrusted peer = true) {before after : List (Text × Text)}
    {name value : Text} {addresses : List Address}
    (hbefore : ∀ h ∈ before, headerIp lib r peer h.1 h.2 = none)
    (hname : iequals name (ascii "X-Forwarded-For") = true)
    (hvalue : IsAddressList lib value addresses) :
    resolve lib r peer (before ++ (name, value) :: after) =
      lib.toText (client r.isTrusted peer (addresses.take 64)) := by
  have hnone : before.findSome? (fun h => headerIp lib r peer h.1 h.2) = none :=
    List.findSome?_eq_none_iff.mpr hbefore
  simp [resolve, hpeer, List.findSome?_append, hnone, headerIp_forwarded hpeer hname hvalue]

theorem resolve_untrusted (hpeer : r.isTrusted peer = false) (headers : List (Text × Text)) :
    resolve lib r peer headers = lib.toText peer := by
  simp [resolve, hpeer]

/-- The peer of an untrusted connection, else the client of the list. -/
def expected (lib : AddressText) (r : ClientIpResolver) (peer : Address)
    (addresses : List Address) : Text :=
  lib.toText (if r.isTrusted peer then client r.isTrusted peer addresses else peer)

/-- No untrusted address is cut off, unless it is also the right-most untrusted of the first 64. -/
def WithinCap (r : ClientIpResolver) (addresses : List Address) : Prop :=
  ∀ u, rightmostUntrusted r.isTrusted (addresses.drop 64) = some u →
    rightmostUntrusted r.isTrusted (addresses.take 64) = some u

theorem withinCap_of_length (r : ClientIpResolver) {addresses : List Address}
    (h : addresses.length ≤ 64) : WithinCap r addresses := by
  intro u hu
  rw [List.drop_of_length_le h] at hu
  cases hu

theorem resolve_eq_expected_iff {before after : List (Text × Text)} {name value : Text}
    {addresses : List Address} (hbefore : ∀ h ∈ before, headerIp lib r peer h.1 h.2 = none)
    (hname : iequals name (ascii "X-Forwarded-For") = true)
    (hvalue : IsAddressList lib value addresses) :
    resolve lib r peer (before ++ (name, value) :: after) = expected lib r peer addresses ↔
      (r.isTrusted peer = true → WithinCap r addresses) := by
  cases hpeer : r.isTrusted peer with
  | false => simp [resolve_untrusted hpeer, expected, hpeer]
  | true =>
    rw [resolve_forwarded hpeer hbefore hname hvalue, expected, hpeer, if_pos rfl, WithinCap,
      ← client_take_iff peer 64 addresses (by omega)]
    exact ⟨fun h _ => lib.toText_inj h, fun h => by rw [h rfl]⟩

/-- The headers of an untrusted peer are ignored. A trusted peer's list gives its client exactly when
the cap cuts off no untrusted address, and then what the client wrote in front of its own address
changes nothing. -/
theorem forwarded_client_iff (lib : AddressText) (r : ClientIpResolver) (peer : Address) :
    (r.isTrusted peer = false → ∀ headers, resolve lib r peer headers = lib.toText peer) ∧
    (∀ before after name value addresses,
      (∀ h ∈ before, headerIp lib r peer h.1 h.2 = none) →
      iequals name (ascii "X-Forwarded-For") = true → IsAddressList lib value addresses →
      (resolve lib r peer (before ++ (name, value) :: after) = expected lib r peer addresses ↔
        (r.isTrusted peer = true → WithinCap r addresses))) ∧
    (∀ before after name value₁ value₂ front₁ front₂ u back,
      (∀ h ∈ before, headerIp lib r peer h.1 h.2 = none) →
      iequals name (ascii "X-Forwarded-For") = true →
      IsAddressList lib value₁ (front₁ ++ u :: back) →
      IsAddressList lib value₂ (front₂ ++ u :: back) →
      r.isTrusted u = false → (∀ a ∈ back, r.isTrusted a = true) →
      (r.isTrusted peer = true → WithinCap r (front₁ ++ u :: back) ∧
        WithinCap r (front₂ ++ u :: back)) →
      resolve lib r peer (before ++ (name, value₁) :: after) =
        resolve lib r peer (before ++ (name, value₂) :: after)) := by
  refine ⟨resolve_untrusted, ?_, ?_⟩
  · intro before after name value addresses hbefore hname hvalue
    exact resolve_eq_expected_iff hbefore hname hvalue
  · intro before after name value₁ value₂ front₁ front₂ u back hbefore hname h₁ h₂ hu hback hcap
    rw [(resolve_eq_expected_iff hbefore hname h₁).mpr fun hpeer => (hcap hpeer).1,
      (resolve_eq_expected_iff hbefore hname h₂).mpr fun hpeer => (hcap hpeer).2]
    simp only [expected, client_append peer _ hu hback]

namespace Forged

def resolver : ClientIpResolver where
  ranges := [⟨.v4 0x7f000000, 8⟩, ⟨.v4 0x0a000000, 8⟩]
  headerPriority := [ascii "X-Forwarded-For"]

/-- The client of this list is at `198.51.100.10`, behind the proxy `10.2.3.4`. -/
def short : List Address := [.v4 0xc633640a, .v4 0x0a020304]

/-- The client writes an address and 63 that are in a trusted range; its proxy appends the address
the request came from. -/
def addresses : List Address :=
  .v4 0xcb007109 :: List.replicate 63 (.v4 0x0a000001) ++ [.v4 0xc6336407]

def value : Text :=
  ascii "203.0.113.9," ++ (List.replicate 63 (ascii "10.0.0.1,")).flatten ++ ascii "198.51.100.7"

end Forged

theorem forwarded_client_short :
    resolve AddressText.dotted Forged.resolver (.v4 0x7f000001)
      [(ascii "X-Forwarded-For", ascii "198.51.100.10, 10.2.3.4")] = ascii "198.51.100.10" := by
  have h := ((forwarded_client_iff AddressText.dotted Forged.resolver (.v4 0x7f000001)).2.1 [] []
    (ascii "X-Forwarded-For") (ascii "198.51.100.10, 10.2.3.4") Forged.short (by simp)
    (by decide) (by decide)).mpr fun _ => withinCap_of_length _ (by decide)
  rw [List.nil_append] at h
  rw [h]
  decide

/-- The list of 65 addresses resolves to the one that the client wrote. -/
theorem forwarded_cap_forged :
    ClientIpResolver.make AddressText.dotted [ascii "127.0.0.0/8", ascii "10.0.0.0/8"]
      [ascii "X-Forwarded-For"] = .ok Forged.resolver ∧
    IsAddressList AddressText.dotted Forged.value Forged.addresses ∧
    resolve AddressText.dotted Forged.resolver (.v4 0x7f000001)
      [(ascii "X-Forwarded-For", Forged.value)] = ascii "203.0.113.9" ∧
    expected AddressText.dotted Forged.resolver (.v4 0x7f000001) Forged.addresses =
      ascii "198.51.100.7" ∧
    resolve AddressText.dotted Forged.resolver (.v4 0x7f000001)
      [(ascii "X-Forwarded-For", Forged.value)] ≠
      expected AddressText.dotted Forged.resolver (.v4 0x7f000001) Forged.addresses := by
  refine ⟨by decide, by decide, by decide, by decide,
    by decide⟩

end Network
end WebServer
