import WebServer.Lib.Result
import WebServer.Routing.HostNormalizer

/-!
# WebServer.Routing.Router

Tables of hosts by exact name and by wildcard, and `VirtualHostRouter`.

* `HostTable.find`: the exact name first, then the first wildcard whose suffix matches. The wildcards
  are ordered by the length of their suffix, the longest first.
* `VirtualHostRouter.make` adds the domains of every host in turn and refuses a domain that is there
  already.
-/

namespace WebServer
namespace Routing

open Http

/-- The bytes of a string of the configuration. -/
def utf8 (s : String) : Text := s.toByteArray.data.toList

/-- Normalized domains are ASCII. -/
def asciiString (t : Text) : String := String.ofList (t.map fun b => Char.ofNat b.toNat)

theorem utf8_append (s t : String) : utf8 (s ++ t) = utf8 s ++ utf8 t := by
  simp [utf8]

theorem isHostByte_lt {b : UInt8} (h : isHostByte b = true) : b.toNat < 128 := by
  have hall : ∀ n < 256, isHostByte (UInt8.ofNat n) = true → n < 128 := by decide +kernel
  exact hall b.toNat b.toNat_lt (by simpa using h)

theorem utf8EncodeChar_ascii :
    ∀ n < 128, String.utf8EncodeChar (Char.ofNat n) = [UInt8.ofNat n] := by decide

theorem utf8_asciiString {t : Text} (h : ∀ b ∈ t, isHostByte b = true) :
    utf8 (asciiString t) = t := by
  have hbyte : ∀ b ∈ t, String.utf8EncodeChar (Char.ofNat b.toNat) = [b] := by
    intro b hb
    rw [utf8EncodeChar_ascii b.toNat (isHostByte_lt (h b hb)), UInt8.ofNat_toNat]
  unfold utf8 asciiString
  rw [String.toByteArray_ofList, List.utf8Encode, List.toList_data_toByteArray, List.flatMap_map,
    List.flatMap_congr hbyte]
  simp

structure HostTable (α : Type) where
  exact : List (Text × α)
  wildcard : List (Text × α)

namespace HostTable

variable {α : Type}

def empty : HostTable α := ⟨[], []⟩

def sorted (t : HostTable α) : HostTable α :=
  { t with wildcard := t.wildcard.mergeSort fun a b => b.1.length ≤ a.1.length }

/-- `below` restricts what may stand before the suffix of a wildcard. -/
def find (below : Text → Bool) (t : HostTable α) (host : Text) : Option α :=
  match t.exact.lookup host with
  | some a => some a
  | none => (t.wildcard.find? fun e => (subdomain e.1 host).any below).map Prod.snd

theorem mem_exact_of_lookup {t : HostTable α} {host : Text} {a : α}
    (h : t.exact.lookup host = some a) : (host, a) ∈ t.exact := by
  rw [List.lookup_eq_some_iff] at h
  obtain ⟨l₁, l₂, hlist, -⟩ := h
  rw [hlist]
  simp

theorem lookup_isSome_of_mem {t : HostTable α} {host : Text} {a : α} (h : (host, a) ∈ t.exact) :
    (t.exact.lookup host).isSome := by
  rw [List.lookup_isSome_iff]
  exact ⟨_, h, by simp⟩

/-- What is found is there under the name itself, or under a wildcard that matches. -/
theorem find_eq_some {below : Text → Bool} {t : HostTable α} {host : Text} {a : α}
    (h : t.find below host = some a) :
    (host, a) ∈ t.exact ∨ (t.exact.lookup host = none ∧ ∃ suffix label, (suffix, a) ∈ t.wildcard ∧
      host = label ++ 46 :: suffix ∧ below label = true) := by
  unfold find at h
  split at h
  · rename_i b hb
    cases h
    exact .inl (mem_exact_of_lookup hb)
  · rename_i hnone
    refine .inr ⟨hnone, ?_⟩
    simp only [Option.map_eq_some_iff] at h
    obtain ⟨⟨suffix, b⟩, hfind, rfl⟩ := h
    have hmatch := List.find?_some hfind
    simp only [Option.any_eq_true_iff_get] at hmatch
    obtain ⟨hsome, hbelow⟩ := hmatch
    exact ⟨suffix, _, List.mem_of_find?_eq_some hfind,
      subdomain_eq_some_iff.mp (Option.some_get hsome).symm, hbelow⟩

theorem find_isSome_iff {below : Text → Bool} {t : HostTable α} {host : Text} :
    (t.find below host).isSome ↔ (∃ a, (host, a) ∈ t.exact) ∨
      ∃ suffix label a, (suffix, a) ∈ t.wildcard ∧ host = label ++ 46 :: suffix ∧
        below label = true := by
  constructor
  · intro h
    obtain ⟨a, ha⟩ := Option.isSome_iff_exists.mp h
    rcases find_eq_some ha with h | ⟨-, suffix, label, h⟩
    · exact .inl ⟨a, h⟩
    · exact .inr ⟨suffix, label, a, h⟩
  · intro h
    unfold find
    cases hlookup : t.exact.lookup host with
    | some a => rfl
    | none =>
      rcases h with ⟨a, ha⟩ | ⟨suffix, label, a, hmem, hhost, hbelow⟩
      · have := lookup_isSome_of_mem ha
        rw [hlookup] at this
        cases this
      · simp only [Option.isSome_map, List.find?_isSome]
        exact ⟨(suffix, a), hmem, by simp [subdomain_eq_some_iff.mpr hhost, hbelow]⟩

theorem mem_sorted_wildcard {t : HostTable α} {e : Text × α} :
    e ∈ t.sorted.wildcard ↔ e ∈ t.wildcard := List.mem_mergeSort

end HostTable

/-! ## Patterns -/

def isWildcard (pattern : Text) : Bool := ascii "*." <+: pattern

/-- The domain of a pattern, without the star. -/
def patternDomain (pattern : Text) : Option Text :=
  normalizeDomain (if isWildcard pattern then pattern.drop 2 else pattern)

/-- A pattern in the form in which it is stored. -/
def patternOf (wildcard : Bool) (domain : Text) : String :=
  if wildcard then "*." ++ asciiString domain else asciiString domain

def normalizePattern (pattern : String) : Option String :=
  (patternDomain (utf8 pattern)).map (patternOf (isWildcard (utf8 pattern)))

theorem isWildcard_hostBytes {t : Text} (h : ∀ b ∈ t, isHostByte b = true) :
    isWildcard t = false := by
  cases t with
  | nil => rfl
  | cons b t =>
    by_contra hw
    obtain ⟨rest, hrest⟩ : ascii "*." <+: b :: t := by simpa [isWildcard] using hw
    have hb : b = 42 := (List.cons.inj hrest).1.symm
    have := h b (by simp)
    rw [hb] at this
    cases this

/-- A pattern that is normalized and still accepted is not changed any more. -/
theorem normalizePattern_again {p q : String} (h : normalizePattern p = some q)
    (hq : (patternDomain (utf8 q)).isSome) : normalizePattern q = some q := by
  obtain ⟨d', hd'⟩ := Option.isSome_iff_exists.mp hq
  simp only [normalizePattern, Option.map_eq_some_iff] at h ⊢
  obtain ⟨d, hd, rfl⟩ := h
  have hbytes : ∀ b ∈ d, isHostByte b = true := normalize_bytes hd
  refine ⟨d', hd', ?_⟩
  unfold patternDomain at hd hd'
  unfold patternOf at hd' ⊢
  by_cases hw : isWildcard (utf8 p) = true
  · have hq : utf8 ("*." ++ asciiString d) = ascii "*." ++ d := by
      rw [utf8_append, utf8_asciiString hbytes]
      rfl
    have hstar : isWildcard (ascii "*." ++ d) = true := by simp [isWildcard]
    rw [if_pos hw] at hd hd' ⊢
    rw [hq, hstar] at hd' ⊢
    rw [if_pos rfl, normalizeDomain_again hd hd']
  · rw [if_neg hw] at hd hd' ⊢
    rw [utf8_asciiString hbytes, isWildcard_hostBytes hbytes] at hd' ⊢
    rw [if_neg (by simp), normalizeDomain_again hd hd']

/-! ## Virtual hosts -/

namespace VirtualHostRouter

variable {α : Type} (check : α → Except String Unit) (domains : α → List String)

def addPattern (host : α) (t : HostTable α) (pattern : String) : Except String (HostTable α) :=
  match patternDomain (utf8 pattern) with
  | none => .error ("invalid virtual host domain: " ++ pattern)
  | some domain =>
    if isWildcard (utf8 pattern) then
      if 46 ∉ domain then .error ("wildcard domain is too broad: " ++ pattern)
      else if t.wildcard.any (fun e => e.1 == domain) then
        .error ("duplicate virtual host domain: " ++ pattern)
      else .ok { t with wildcard := t.wildcard ++ [(domain, host)] }
    else if t.exact.any (fun e => e.1 == domain) then
      .error ("duplicate virtual host domain: " ++ pattern)
    else .ok { t with exact := t.exact ++ [(domain, host)] }

/-- `check` are the tests of the constructor that do not concern the domains. -/
def addHost (t : HostTable α) (host : α) : Except String (HostTable α) := do
  check host
  (domains host).foldlM (addPattern host) t

def make (hosts : List α) : Except String (HostTable α) := do
  let t ← hosts.foldlM (addHost check domains) .empty
  return t.sorted

def find (t : HostTable α) (normalizedHost : Text) : Option α :=
  HostTable.find (fun _ => true) t normalizedHost

end VirtualHostRouter

namespace VirtualHostRouter

variable {α : Type} {check : α → Except String Unit} {domains : α → List String}

/-- Every entry is a domain of one of the hosts. -/
structure Sound (domains : α → List String) (hosts : List α) (t : HostTable α) : Prop where
  exact : ∀ d host, (d, host) ∈ t.exact → host ∈ hosts ∧ ∃ p ∈ domains host,
    isWildcard (utf8 p) = false ∧ patternDomain (utf8 p) = some d
  wildcard : ∀ d host, (d, host) ∈ t.wildcard → host ∈ hosts ∧ ∃ p ∈ domains host,
    isWildcard (utf8 p) = true ∧ patternDomain (utf8 p) = some d

theorem Sound.addPattern {hosts : List α} {t t' : HostTable α} {host : α} {p : String}
    (h : Sound domains hosts t) (hhost : host ∈ hosts) (hp : p ∈ domains host)
    (hadd : VirtualHostRouter.addPattern host t p = .ok t') : Sound domains hosts t' := by
  unfold VirtualHostRouter.addPattern at hadd
  split at hadd
  · cases hadd
  · rename_i domain hdomain
    split at hadd
    · rename_i hwild
      split at hadd
      · cases hadd
      · split at hadd
        · cases hadd
        · cases hadd
          refine ⟨h.exact, ?_⟩
          intro d host' hm
          rcases List.mem_append.mp hm with hm | hm
          · exact h.wildcard d host' hm
          · rw [List.mem_singleton, Prod.mk.injEq] at hm
            obtain ⟨rfl, rfl⟩ := hm
            exact ⟨hhost, p, hp, hwild, hdomain⟩
    · rename_i hwild
      split at hadd
      · cases hadd
      · cases hadd
        refine ⟨?_, h.wildcard⟩
        intro d host' hm
        rcases List.mem_append.mp hm with hm | hm
        · exact h.exact d host' hm
        · rw [List.mem_singleton, Prod.mk.injEq] at hm
          obtain ⟨rfl, rfl⟩ := hm
          exact ⟨hhost, p, hp, by simpa using hwild, hdomain⟩

theorem sound_make {hosts : List α} {t : HostTable α} (h : make check domains hosts = .ok t) :
    Sound domains hosts t := by
  unfold make at h
  cases hfold : hosts.foldlM (addHost check domains) .empty with
  | error e => rw [hfold] at h; cases h
  | ok t₀ =>
    rw [hfold] at h
    cases h
    have hsound : Sound domains hosts t₀ := by
      refine Result.foldlM_ok (P := Sound domains hosts) ?_ ⟨by simp [HostTable.empty],
        by simp [HostTable.empty]⟩ hfold
      intro s host s' hhost hs hadd
      unfold addHost at hadd
      cases hc : check host with
      | error e => rw [hc] at hadd; cases hadd
      | ok u =>
        rw [hc] at hadd
        exact Result.foldlM_ok (fun _ _ _ hp hs' => hs'.addPattern hhost hp) hs hadd
    exact ⟨hsound.exact, fun d host hm => hsound.wildcard d host (HostTable.mem_sorted_wildcard.mp hm)⟩

end VirtualHostRouter

/-! ## Hosts that differ in what no test reads -/

section Erase

variable {α β : Type}

def HostTable.map (f : α → β) (t : HostTable α) : HostTable β :=
  ⟨t.exact.map fun e => (e.1, f e.2), t.wildcard.map fun e => (e.1, f e.2)⟩

namespace VirtualHostRouter

theorem addPattern_map (f : α → β) (host : α) (t : HostTable α) (pattern : String) :
    (addPattern host t pattern).map (HostTable.map f) = addPattern (f host) (t.map f) pattern := by
  unfold addPattern
  cases patternDomain (utf8 pattern) with
  | none => rfl
  | some domain =>
    simp only [HostTable.map, List.any_map, Function.comp_def]
    split
    · split
      · rfl
      · split
        · rfl
        · simp [Except.map, HostTable.map]
    · split
      · rfl
      · simp [Except.map, HostTable.map]

variable {check : α → Except String Unit} {check' : β → Except String Unit}
  {domains : α → List String} {domains' : β → List String} {f : α → β}

theorem addHost_map (hcheck : ∀ a, check' (f a) = check a) (hdomains : ∀ a, domains' (f a) = domains a)
    (t : HostTable α) (host : α) :
    (addHost check domains t host).map (HostTable.map f) =
      addHost check' domains' (t.map f) (f host) := by
  unfold addHost
  rw [hcheck, hdomains]
  cases check host with
  | error e => rfl
  | ok u =>
    have hloop : ((domains host).foldlM (addPattern host) t).map (HostTable.map f) =
        ((domains host).map id).foldlM (addPattern (f host)) (t.map f) :=
      Result.foldlM_map (addPattern_map f host) _ _
    rw [List.map_id] at hloop
    exact hloop

/-- The constructor accepts both lists or none. -/
theorem make_map (hcheck : ∀ a, check' (f a) = check a) (hdomains : ∀ a, domains' (f a) = domains a)
    (hosts : List α) :
    (make check domains hosts).map (fun _ => ()) = (make check' domains' (hosts.map f)).map fun _ => () := by
  unfold make
  rw [show (HostTable.empty : HostTable β) = HostTable.empty.map f from rfl,
    ← Result.foldlM_map (addHost_map hcheck hdomains)]
  cases hosts.foldlM (addHost check domains) .empty with
  | error e => rfl
  | ok t => rfl

end VirtualHostRouter
end Erase

end Routing
end WebServer
