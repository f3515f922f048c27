import WebServer.Lib.Wire

/-!
# WebServer.Routing.HostNormalizer

`HostNormalizer`: the host of an authority or of a configured domain, in lower case and without a
port, a final dot or brackets. Names are checked label by label, IPv6 literals group by group.

* `normalizeAuthority` for the `Host` header, `normalizeDomain` for what is configured.
* `normalize_bytes`: what a normalized host is made of.
* `normalizeDomain_again`: a domain that is normalized twice.
* `subdomain suffix host`: what stands before `.suffix`. The matchers of wildcards are made from it.
-/

namespace WebServer
namespace Routing

open Http

def isDigit (b : UInt8) : Bool := 48 ≤ b && b ≤ 57

def isAlnum (b : UInt8) : Bool := isDigit b || (65 ≤ b && b ≤ 90) || (97 ≤ b && b ≤ 122)

def isXDigit (b : UInt8) : Bool := isDigit b || (65 ≤ b && b ≤ 70) || (97 ≤ b && b ≤ 102)

/-- One more digit, as long as the value fits into 16 bits. -/
def portStep (value : Option Nat) (b : UInt8) : Option Nat :=
  match value with
  | none => none
  | some v =>
    if isDigit b then
      if 65535 < v * 10 + (b.toNat - 48) then none else some (v * 10 + (b.toNat - 48))
    else none

def validPort (port : Text) : Bool := port ≠ [] && (port.foldl portStep (some 0)).isSome

def validIpv4Component (component : Text) : Bool :=
  component ≠ [] && component.length ≤ 3 && component.all isDigit &&
    Nat.ofDigits 10 (component.reverse.map fun b => b.toNat - 48) ≤ 255

/-- The loop ends before an empty component at the end. -/
def validIpv4Address (address : Text) : Bool :=
  let pieces := address.splitOn 46
  let components := if pieces.getLast? = some [] then pieces.dropLast else pieces
  components.all validIpv4Component && components.length == 4

/-- The number of groups; an IPv4 address may stand for the last two. -/
def countGroups (allowIpv4Tail : Bool) : List Text → Option Nat
  | [] => some 0
  | group :: rest =>
    if group = [] then none
    else if 46 ∈ group then
      if allowIpv4Tail && rest.isEmpty && validIpv4Address group then some 2 else none
    else if group.length ≤ 4 ∧ group.all isXDigit = true then
      (countGroups allowIpv4Tail rest).map (· + 1)
    else none

def countIpv6Groups (sequence : Text) (allowIpv4Tail : Bool) : Option Nat :=
  if sequence = [] then some 0
  else if sequence.getLast? = some 58 then none
  else countGroups allowIpv4Tail (sequence.splitOn 58)

/-- What stands before and after the first `::`. -/
def cutCompression : Text → Option (Text × Text)
  | [] => none
  | [_] => none
  | a :: b :: rest =>
    if a = 58 ∧ b = 58 then some ([], rest)
    else (cutCompression (b :: rest)).map fun p => (a :: p.1, p.2)

def validIpv6Literal (literal : Text) : Bool :=
  if literal = [] then false
  else
    match cutCompression literal with
    | none => countIpv6Groups literal true == some 8
    | some (left, right) =>
      if (cutCompression right).isSome then false
      else
        match countIpv6Groups left false, countIpv6Groups right true with
        | some m, some n => m + n < 8
        | _, _ => false

def validLabel (label : Text) : Bool :=
  label ≠ [] && label.length ≤ 63 && label.head? ≠ some 45 && label.getLast? ≠ some 45 &&
    label.all fun b => isAlnum b || b == 45

def validDnsName (host : Text) : Bool :=
  host ≠ [] && host.length ≤ 253 && host.getLast? ≠ some 46 && (host.splitOn 46).all validLabel

/-- The host in an authority, before it is put in lower case. -/
def hostOf (authority : Text) (allowPort : Bool) : Option Text :=
  match authority with
  | 91 :: rest =>
    match cut 93 rest with
    | none => none
    | some (host, remainder) =>
      let portFits := match remainder with
        | [] => true
        | c :: port => allowPort && c == 58 && validPort port
      if portFits && validIpv6Literal host then some host else none
  | _ =>
    let host := match cut 58 authority with
      | none => some authority
      | some (host, port) =>
        if allowPort && !port.contains 58 && validPort port then some host else none
    match host with
    | none => none
    | some host =>
      let host := if host.getLast? = some 46 then host.dropLast else host
      if validDnsName host then some host else none

def normalize (authority : Text) (allowPort : Bool) : Option Text :=
  if authority = [] ∨ authority.any (fun b => b ≤ 32 || 127 ≤ b) = true then none
  else (hostOf authority allowPort).map fun host => host.map lower

def normalizeAuthority (authority : Text) : Option Text := normalize authority true

def normalizeDomain (domain : Text) : Option Text := normalize domain false

/-! ## What a normalized host is made of -/

/-- Letters, digits, hyphens, dots and colons. -/
def isHostByte (b : UInt8) : Bool := isAlnum b || b == 45 || b == 46 || b == 58

theorem mem_splitOn {c b : UInt8} {t : Text} (h : b ∈ t) :
    b = c ∨ ∃ piece ∈ t.splitOn c, b ∈ piece := by
  have hmem : ∀ pieces : List Text, b ∈ [c].intercalate pieces →
      b = c ∨ ∃ piece ∈ pieces, b ∈ piece := by
    intro pieces
    induction pieces with
    | nil => simp
    | cons p pieces ih =>
      cases pieces with
      | nil =>
        intro hb
        exact .inr ⟨p, by simp, by simpa using hb⟩
      | cons q pieces =>
        rw [List.intercalate_cons_cons, List.mem_append, List.mem_append, List.mem_singleton]
        rintro ((hb | hb) | hb)
        · exact .inr ⟨p, by simp, hb⟩
        · exact .inl hb
        · rcases ih hb with hb | ⟨piece, hp, hb⟩
          · exact .inl hb
          · exact .inr ⟨piece, by simp [List.mem_cons.mp hp], hb⟩
  exact hmem _ (by rwa [List.intercalate_splitOn])

theorem isHostByte_of_digit {b : UInt8} (h : isDigit b = true) : isHostByte b = true := by
  simp [isHostByte, isAlnum, h]

theorem isHostByte_of_xdigit {b : UInt8} (h : isXDigit b = true) : isHostByte b = true := by
  simp only [isXDigit, Bool.or_eq_true, Bool.and_eq_true, decide_eq_true_eq] at h
  simp only [isHostByte, isAlnum, Bool.or_eq_true, Bool.and_eq_true, decide_eq_true_eq]
  rcases h with (h | ⟨h, h'⟩) | ⟨h, h'⟩
  · simp [h]
  · exact .inl (.inl (.inl (.inl (.inr ⟨h, UInt8.le_trans h' (by decide)⟩))))
  · exact .inl (.inl (.inl (.inr ⟨h, UInt8.le_trans h' (by decide)⟩)))

theorem validIpv4Address_bytes {t : Text} (h : validIpv4Address t = true) :
    ∀ b ∈ t, isHostByte b = true := by
  intro b hb
  rcases mem_splitOn (c := 46) hb with rfl | ⟨piece, hp, hb⟩
  · rfl
  · simp only [validIpv4Address, Bool.and_eq_true, List.all_eq_true] at h
    have hpiece : piece ∈ (if (t.splitOn 46).getLast? = some [] then (t.splitOn 46).dropLast
        else t.splitOn 46) := by
      split
      · rename_i hlast
        obtain ⟨front, hfront⟩ := List.getLast?_eq_some_iff.mp hlast
        rw [hfront] at hp ⊢
        rcases List.mem_append.mp hp with hp | hp
        · simpa using hp
        · rw [List.mem_singleton.mp hp] at hb; cases hb
      · exact hp
    have hvalid := h.1 piece hpiece
    simp only [validIpv4Component, Bool.and_eq_true, List.all_eq_true] at hvalid
    exact isHostByte_of_digit (hvalid.1.2 b hb)

theorem countGroups_bytes {tail : Bool} {groups : List Text} {n : Nat}
    (h : countGroups tail groups = some n) : ∀ g ∈ groups, ∀ b ∈ g, isHostByte b = true := by
  induction groups generalizing n with
  | nil => simp
  | cons group rest ih =>
    simp only [countGroups] at h
    split at h
    · cases h
    · split at h
      · split at h
        · rename_i hv
          simp only [Bool.and_eq_true, List.isEmpty_iff] at hv
          obtain ⟨⟨-, rfl⟩, hv⟩ := hv
          simpa using validIpv4Address_bytes hv
        · cases h
      · split at h
        · rename_i hx
          simp only [Option.map_eq_some_iff] at h
          obtain ⟨m, hm, -⟩ := h
          intro g hg
          rcases List.mem_cons.mp hg with rfl | hg
          · intro b hb
            exact isHostByte_of_xdigit (List.all_eq_true.mp hx.2 b hb)
          · exact ih hm g hg
        · cases h

theorem countIpv6Groups_bytes {tail : Bool} {t : Text} {n : Nat}
    (h : countIpv6Groups t tail = some n) : ∀ b ∈ t, isHostByte b = true := by
  unfold countIpv6Groups at h
  split at h
  · rename_i hnil; simp [hnil]
  · split at h
    · cases h
    · intro b hb
      rcases mem_splitOn (c := 58) hb with rfl | ⟨piece, hp, hb⟩
      · rfl
      · exact countGroups_bytes h piece hp b hb

theorem cutCompression_eq {t left right : Text} (h : cutCompression t = some (left, right)) :
    t = left ++ 58 :: 58 :: right := by
  fun_induction cutCompression t generalizing left with
  | case1 => cases h
  | case2 => cases h
  | case3 a b rest hc =>
    cases h
    obtain ⟨rfl, rfl⟩ := hc
    rfl
  | case4 a b rest hc ih =>
    simp only [Option.map_eq_some_iff, Prod.exists, Prod.mk.injEq] at h
    obtain ⟨l, r, hcut, rfl, rfl⟩ := h
    rw [ih hcut]
    rfl

theorem validIpv6Literal_bytes {t : Text} (h : validIpv6Literal t = true) :
    ∀ b ∈ t, isHostByte b = true := by
  unfold validIpv6Literal at h
  split at h
  · cases h
  · split at h
    · exact countIpv6Groups_bytes (beq_iff_eq.mp h)
    · rename_i left right hcut
      split at h
      · cases h
      · split at h
        · rename_i m n hleft hright
          rw [cutCompression_eq hcut]
          intro b hb
          simp only [List.mem_append, List.mem_cons] at hb
          rcases hb with hb | rfl | rfl | hb
          · exact countIpv6Groups_bytes hleft b hb
          · rfl
          · rfl
          · exact countIpv6Groups_bytes hright b hb
        · cases h

theorem validDnsName_bytes {t : Text} (h : validDnsName t = true) :
    ∀ b ∈ t, isHostByte b = true := by
  simp only [validDnsName, Bool.and_eq_true, List.all_eq_true] at h
  intro b hb
  rcases mem_splitOn (c := 46) hb with rfl | ⟨piece, hp, hb⟩
  · rfl
  · have hlabel := h.2 piece hp
    simp only [validLabel, Bool.and_eq_true, List.all_eq_true, Bool.or_eq_true] at hlabel
    rcases hlabel.2 b hb with hb | hb
    · simp [isHostByte, hb]
    · simp [isHostByte, hb]

theorem hostOf_cases {authority host : Text} {allowPort : Bool}
    (h : hostOf authority allowPort = some host) :
    validIpv6Literal host = true ∨ validDnsName host = true := by
  unfold hostOf at h
  split at h
  · split at h
    · cases h
    · simp only [Option.ite_none_right_eq_some, Bool.and_eq_true, Option.some.injEq] at h
      obtain ⟨⟨-, hv⟩, rfl⟩ := h
      exact .inl hv
  · dsimp only at h
    split at h
    · cases h
    · rw [Option.ite_none_right_eq_some, Option.some.injEq] at h
      obtain ⟨hv, rfl⟩ := h
      exact .inr hv

theorem hostOf_bytes {authority host : Text} {allowPort : Bool}
    (h : hostOf authority allowPort = some host) : ∀ b ∈ host, isHostByte b = true := by
  rcases hostOf_cases h with hv | hv
  · exact validIpv6Literal_bytes hv
  · exact validDnsName_bytes hv

theorem lower_hostByte : ∀ n < 256, isHostByte (UInt8.ofNat n) = true →
    isHostByte (lower (UInt8.ofNat n)) = true := by decide +kernel

theorem normalize_bytes {authority host : Text} {allowPort : Bool}
    (h : normalize authority allowPort = some host) : ∀ b ∈ host, isHostByte b = true := by
  unfold normalize at h
  split at h
  · cases h
  · simp only [Option.map_eq_some_iff] at h
    obtain ⟨name, hname, rfl⟩ := h
    intro b hb
    obtain ⟨c, hc, rfl⟩ := List.mem_map.mp hb
    have := lower_hostByte c.toNat c.toNat_lt
    rw [UInt8.ofNat_toNat] at this
    exact this (hostOf_bytes hname c hc)

/-! ## What an accepted authority is made of -/

/-- The brackets are those of an IPv6 address. -/
def isAuthorityByte (b : UInt8) : Bool := isHostByte b || b == 91 || b == 93

theorem isAuthorityByte_of_hostByte {b : UInt8} (h : isHostByte b = true) :
    isAuthorityByte b = true := by
  simp [isAuthorityByte, h]

theorem validPort_digits {t : Text} (h : validPort t = true) : ∀ b ∈ t, isDigit b = true := by
  have hnone : ∀ t : Text, t.foldl portStep none = none := by
    intro t
    induction t with
    | nil => rfl
    | cons b t ih => exact ih
  have hdigits : ∀ (t : Text) (v : Nat), (t.foldl portStep (some v)).isSome = true →
      ∀ b ∈ t, isDigit b = true := by
    intro t
    induction t with
    | nil => simp
    | cons c t ih =>
      intro v hv b hb
      rw [List.foldl_cons] at hv
      cases hstep : portStep (some v) c with
      | none =>
        rw [hstep, hnone] at hv
        cases hv
      | some v' =>
        rw [hstep] at hv
        rcases List.mem_cons.mp hb with rfl | hb
        · simp only [portStep] at hstep
          split at hstep
          · assumption
          · cases hstep
        · exact ih v' hv b hb
  simp only [validPort, Bool.and_eq_true] at h
  exact hdigits t 0 h.2

/-- Each part of an accepted authority: the host, the brackets around it and the port after it. -/
theorem hostOf_authorityBytes {authority host : Text} {allowPort : Bool}
    (h : hostOf authority allowPort = some host) : ∀ b ∈ authority, isAuthorityByte b = true := by
  have hport : ∀ port, validPort port = true → ∀ b ∈ port, isAuthorityByte b = true :=
    fun port hp b hb => isAuthorityByte_of_hostByte (isHostByte_of_digit (validPort_digits hp b hb))
  have hhost : ∀ name, validDnsName (if name.getLast? = some 46 then name.dropLast else name) = true →
      ∀ b ∈ name, isAuthorityByte b = true := by
    intro name hv b hb
    by_cases hdot : name.getLast? = some 46
    · rw [if_pos hdot] at hv
      rw [← List.dropLast_append_getLast? 46 hdot] at hb
      rcases List.mem_append.mp hb with hb | hb
      · exact isAuthorityByte_of_hostByte (validDnsName_bytes hv b hb)
      · rw [List.mem_singleton.mp hb]
        rfl
    · rw [if_neg hdot] at hv
      exact isAuthorityByte_of_hostByte (validDnsName_bytes hv b hb)
  unfold hostOf at h
  split at h
  · rename_i rest
    split at h
    · cases h
    · rename_i name remainder hcut
      simp only [Option.ite_none_right_eq_some, Bool.and_eq_true, Option.some.injEq] at h
      obtain ⟨⟨hfits, hv⟩, rfl⟩ := h
      rw [eq_of_cut hcut]
      intro b hb
      simp only [List.mem_cons, List.mem_append] at hb
      rcases hb with rfl | hb | rfl | hb
      · rfl
      · exact isAuthorityByte_of_hostByte (validIpv6Literal_bytes hv b hb)
      · rfl
      · cases remainder with
        | nil => cases hb
        | cons c port =>
          simp only [Bool.and_eq_true, beq_iff_eq] at hfits
          rcases List.mem_cons.mp hb with rfl | hb
          · rw [hfits.1.2]
            rfl
          · exact hport port hfits.2 b hb
  · dsimp only at h
    cases hcut : cut 58 authority with
    | none =>
      simp only [hcut, Option.ite_none_right_eq_some] at h
      exact hhost authority h.1
    | some p =>
      obtain ⟨name, port⟩ := p
      rw [eq_of_cut hcut]
      simp only [hcut] at h
      split at h
      · cases h
      · rename_i name' hname
        simp only [Option.ite_none_right_eq_some, Bool.and_eq_true, Option.some.injEq] at hname h
        obtain ⟨⟨-, hp⟩, rfl⟩ := hname
        intro b hb
        simp only [List.mem_cons, List.mem_append] at hb
        rcases hb with hb | rfl | hb
        · exact hhost name h.1 b hb
        · rfl
        · exact hport port hp b hb

theorem normalize_authorityBytes {authority host : Text} {allowPort : Bool}
    (h : normalize authority allowPort = some host) :
    ∀ b ∈ authority, isAuthorityByte b = true := by
  unfold normalize at h
  split at h
  · cases h
  · obtain ⟨name, hname, -⟩ := Option.map_eq_some_iff.mp h
    exact hostOf_authorityBytes hname

/-! ## Domains that are normalized again -/

theorem lower_lower (b : UInt8) : lower (lower b) = lower b := by
  have hall : ∀ n < 256, lower (lower (UInt8.ofNat n)) = lower (UInt8.ofNat n) := by decide +kernel
  simpa using hall b.toNat b.toNat_lt

theorem eq_of_lower_eq_dot {b : UInt8} (h : lower b = 46) : b = 46 := by
  have hall : ∀ n < 256, lower (UInt8.ofNat n) = 46 → UInt8.ofNat n = 46 := by decide +kernel
  simpa using hall b.toNat b.toNat_lt (by simpa using h)

theorem countGroups_singleton {tail : Bool} {group : Text} {n : Nat}
    (h : countGroups tail [group] = some n) : n ≤ 2 := by
  simp only [countGroups] at h
  split at h
  · cases h
  · split at h
    · split at h <;> cases h
      exact le_rfl
    · split at h <;> cases h
      decide

/-- An IPv6 literal has colons. -/
theorem colon_mem_of_validIpv6Literal {t : Text} (h : validIpv6Literal t = true) : 58 ∈ t := by
  unfold validIpv6Literal at h
  split at h
  · cases h
  · rename_i hne
    split at h
    · by_contra hcolon
      rw [beq_iff_eq, countIpv6Groups, if_neg hne, List.splitOn_eq_singleton hcolon] at h
      split at h
      · cases h
      · have := countGroups_singleton h
        omega
    · rename_i left right hcut
      rw [cutCompression_eq hcut]
      simp

/-- What a normalized host is read as, where no port may follow. -/
theorem hostOf_hostBytes {t host : Text} (hbytes : ∀ b ∈ t, isHostByte b = true)
    (h : hostOf t false = some host) :
    58 ∉ t ∧ host = if t.getLast? = some 46 then t.dropLast else t := by
  unfold hostOf at h
  split at h
  · have := hbytes 91 (by simp)
    cases this
  · cases hcut : cut 58 t with
    | some p => rw [hcut] at h; simp at h
    | none =>
      rw [hcut] at h
      simp only [Option.ite_none_right_eq_some, Option.some.injEq] at h
      exact ⟨cut_none_not_mem hcut, h.2.symm⟩

/-- A name that is normalized and still accepted is not changed any more. An IPv6 literal has lost
its brackets, and is not accepted. -/
theorem normalizeDomain_again {t d d' : Text} (h : normalizeDomain t = some d)
    (h' : normalizeDomain d = some d') : d' = d := by
  have hbytes := normalize_bytes h
  unfold normalizeDomain normalize at h h'
  split at h
  · cases h
  split at h'
  · cases h'
  simp only [Option.map_eq_some_iff] at h h'
  obtain ⟨host, hhost, rfl⟩ := h
  obtain ⟨host', hhost', rfl⟩ := h'
  obtain ⟨hcolon, rfl⟩ := hostOf_hostBytes hbytes hhost'
  have hdot : (host.map lower).getLast? ≠ some 46 := by
    intro hlast
    rw [List.getLast?_map, Option.map_eq_some_iff] at hlast
    obtain ⟨b, hb, hdot⟩ := hlast
    rcases hostOf_cases hhost with hv | hv
    · refine hcolon (List.mem_map.mpr ⟨58, colon_mem_of_validIpv6Literal hv, by decide⟩)
    · simp only [validDnsName, Bool.and_eq_true, decide_eq_true_eq] at hv
      exact hv.1.2 (eq_of_lower_eq_dot hdot ▸ hb)
  rw [if_neg hdot, List.map_map]
  exact List.map_congr_left fun b _ => lower_lower b

/-! ## Wildcards -/

/-- What stands before the dot and the suffix at the end of the host. -/
def subdomain (suffix host : Text) : Option Text :=
  if suffix.length < host.length ∧ suffix <:+ host ∧
      host[host.length - suffix.length - 1]? = some 46 then
    some (host.take (host.length - suffix.length - 1))
  else none

theorem subdomain_eq_some_iff {suffix host label : Text} :
    subdomain suffix host = some label ↔ host = label ++ 46 :: suffix := by
  unfold subdomain
  constructor
  · intro h
    split at h
    · rename_i hmatch
      obtain ⟨hlen, ⟨front, rfl⟩, hdot⟩ := hmatch
      simp only [Option.some.injEq, List.length_append] at h hdot hlen
      obtain ⟨label', rfl⟩ : ∃ label', front = label' ++ [46] := by
        have hne : front ≠ [] := by
          rintro rfl
          simp at hlen
        refine ⟨front.dropLast, ?_⟩
        have hlast : front.getLast? = some 46 := by
          rw [List.getLast?_eq_getElem?]
          rw [List.getElem?_append_left (by have := List.length_pos_iff.mpr hne; omega)] at hdot
          rw [← hdot]
          congr 1
          omega
        rw [List.getLast?_eq_some_getLast hne, Option.some.injEq] at hlast
        rw [← hlast, List.dropLast_append_getLast]
      rw [← h]
      simp
    · cases h
  · rintro rfl
    have hlen : (label ++ 46 :: suffix).length - suffix.length - 1 = label.length := by
      simp only [List.length_append, List.length_cons]
      omega
    have hlt : suffix.length < (label ++ 46 :: suffix).length := by
      simp only [List.length_append, List.length_cons]
      omega
    rw [hlen, if_pos ⟨hlt, ⟨label ++ [46], by simp⟩, by simp⟩]
    simp

theorem subdomain_isSome_iff {suffix host : Text} :
    (subdomain suffix host).isSome ↔ ∃ label, host = label ++ 46 :: suffix := by
  simp only [Option.isSome_iff_exists, subdomain_eq_some_iff]

/-- Two suffixes of one length cannot both match. -/
theorem subdomain_suffix_unique {s s' host : Text} (h : (subdomain s host).isSome)
    (h' : (subdomain s' host).isSome) (hlen : s.length = s'.length) : s = s' := by
  obtain ⟨label, hl⟩ := subdomain_isSome_iff.mp h
  obtain ⟨label', hl'⟩ := subdomain_isSome_iff.mp h'
  rw [hl] at hl'
  have := List.append_inj_right' hl' (by simp [hlen])
  simpa using this

end Routing
end WebServer
