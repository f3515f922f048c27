import WebServer.Lib.Joined
import WebServer.Routing.HostNormalizer

/-!
# WebServer.Routing.HostGrammar

The language of authorities, and which part of it `HostNormalizer` accepts.

The grammar is written with pieces and separators; the scanning loops of the normalizer are compared
with it one by one. They agree but for one thing: the loop over the components of a dotted quad ends
before an empty component at the end, so that a quad may be followed by a dot.

* `Authority`, `Host`: the grammar, with the host that a text denotes. `quad` is what may stand for
  the last two groups of an IPv6 address.
* `normalizeAuthority_eq_some_iff`: what is accepted, with `LooseQuad` in the place of `Quad`.
* `meets_iff`: on which texts the normalizer meets the grammar.
-/

namespace WebServer
namespace Routing

open Http
open WebServer.Joined (Pieces)

/-! ## The grammar -/

/-- The number that the digits denote. -/
def number (digits : Text) : ℕ := Nat.ofDigits 10 (digits.reverse.map fun b => b.toNat - 48)

structure Port (t : Text) : Prop where
  nonempty : t ≠ []
  digits : ∀ b ∈ t, isDigit b = true
  value : number t ≤ 65535

/-- Letters, digits and inner hyphens. -/
structure Label (t : Text) : Prop where
  nonempty : t ≠ []
  length : t.length ≤ 63
  bytes : ∀ b ∈ t, isAlnum b = true ∨ b = 45
  first : t.head? ≠ some 45
  last : t.getLast? ≠ some 45

def DnsName (t : Text) : Prop :=
  ∃ labels, labels ≠ [] ∧ (∀ label ∈ labels, Label label) ∧ t = [46].intercalate labels ∧
    t.length ≤ 253

structure Octet (t : Text) : Prop where
  nonempty : t ≠ []
  length : t.length ≤ 3
  digits : ∀ b ∈ t, isDigit b = true
  value : number t ≤ 255

def Quad (t : Text) : Prop :=
  ∃ octets : List Text, octets.length = 4 ∧ (∀ octet ∈ octets, Octet octet) ∧
    t = [46].intercalate octets

structure Group (t : Text) : Prop where
  nonempty : t ≠ []
  length : t.length ≤ 4
  digits : ∀ b ∈ t, isXDigit b = true

/-- The text stands for `n` groups. -/
inductive Groups (quad : Text → Prop) : Text → ℕ → Prop where
  | hex {groups : List Text} (h : ∀ group ∈ groups, Group group) :
    Groups quad ([58].intercalate groups) groups.length
  | tail {groups : List Text} {q : Text} (h : ∀ group ∈ groups, Group group) (hq : quad q) :
    Groups quad ([58].intercalate (groups ++ [q])) (groups.length + 2)

/-- Eight groups, or fewer with one `::`; a quad may only stand at the end. -/
inductive Ipv6 (quad : Text → Prop) : Text → Prop where
  | full {t : Text} (h : Groups quad t 8) : Ipv6 quad t
  | compressed {l r : Text} {m n : ℕ} (hl : Groups (fun _ => False) l m) (hr : Groups quad r n)
    (h : m + n < 8) : Ipv6 quad (l ++ 58 :: 58 :: r)

/-- The second text is the host that the first one denotes. -/
inductive Host (quad : Text → Prop) : Text → Text → Prop where
  | name {t : Text} (h : DnsName t) : Host quad t (t.map lower)
  | dotted {t : Text} (h : DnsName t) : Host quad (t ++ [46]) (t.map lower)
  | ipv6 {t : Text} (h : Ipv6 quad t) : Host quad (91 :: t ++ [93]) (t.map lower)

inductive PortPart : Text → Prop where
  | none : PortPart []
  | some {port : Text} (h : Port port) : PortPart (58 :: port)

def Authority (quad : Text → Prop) (s host : Text) : Prop :=
  ∃ t part, Host quad t host ∧ PortPart part ∧ s = t ++ part

/-! ## Numbers -/

theorem number_concat (t : Text) (b : UInt8) : number (t ++ [b]) = number t * 10 + (b.toNat - 48) := by
  simp only [number, List.reverse_append, List.reverse_singleton, List.singleton_append, List.map_cons,
    Nat.ofDigits_cons]
  omega

theorem foldl_portStep (t : Text) :
    t.foldl portStep (some 0) =
      if t.all isDigit = true ∧ number t ≤ 65535 then some (number t) else none := by
  induction t using List.reverseRecOn with
  | nil => rfl
  | append_singleton t b ih =>
    rw [List.foldl_append, ih, List.foldl_cons, List.foldl_nil, number_concat, List.all_append]
    by_cases hb : isDigit b = true
    · by_cases ht : t.all isDigit = true ∧ number t ≤ 65535
      · have hall : (t.all isDigit && [b].all isDigit) = true := by simp [ht.1, hb]
        rw [if_pos ht]
        by_cases hvalue : number t * 10 + (b.toNat - 48) ≤ 65535
        · rw [if_pos ⟨hall, hvalue⟩]
          simp only [portStep, hb, if_true, if_neg (not_lt.mpr hvalue)]
        · rw [if_neg fun h => hvalue h.2]
          simp only [portStep, hb, if_true, if_pos (not_le.mp hvalue)]
      · rw [if_neg ht, if_neg]
        · rfl
        · rintro ⟨hall, hvalue⟩
          exact ht ⟨(Bool.and_eq_true_iff.mp hall).1, by omega⟩
    · have hnot : ¬ ((t.all isDigit && [b].all isDigit) = true ∧
          number t * 10 + (b.toNat - 48) ≤ 65535) := fun h => by simp [hb] at h
      rw [if_neg hnot]
      split
      · simp [portStep, hb]
      · rfl

theorem validPort_iff {t : Text} : validPort t = true ↔ Port t := by
  simp only [validPort, Bool.and_eq_true, decide_eq_true_eq, foldl_portStep]
  constructor
  · rintro ⟨hne, hsome⟩
    split at hsome
    · rename_i h
      exact ⟨hne, List.all_eq_true.mp h.1, h.2⟩
    · cases hsome
  · intro h
    exact ⟨h.nonempty, by rw [if_pos ⟨List.all_eq_true.mpr h.digits, h.value⟩]; rfl⟩

/-! ## Names -/

theorem validLabel_iff {t : Text} : validLabel t = true ↔ Label t := by
  simp only [validLabel, Bool.and_eq_true, Bool.or_eq_true, decide_eq_true_eq, List.all_eq_true,
    beq_iff_eq]
  constructor
  · rintro ⟨⟨⟨⟨hne, hlength⟩, hfirst⟩, hlast⟩, hbytes⟩
    exact ⟨hne, hlength, hbytes, hfirst, hlast⟩
  · intro h
    exact ⟨⟨⟨⟨h.nonempty, h.length⟩, h.first⟩, h.last⟩, h.bytes⟩

theorem Label.pieces {labels : List Text} (hne : labels ≠ []) (h : ∀ label ∈ labels, Label label) :
    Pieces 46 labels where
  notNil := hne
  nonempty label hl := (h label hl).nonempty
  free label hl hdot := by
    rcases (h label hl).bytes 46 hdot with hb | hb
    · exact absurd hb (by decide)
    · cases hb

theorem validDnsName_iff {t : Text} : validDnsName t = true ↔ DnsName t := by
  simp only [validDnsName, Bool.and_eq_true, decide_eq_true_eq, List.all_eq_true]
  constructor
  · rintro ⟨⟨⟨-, hlength⟩, -⟩, hlabels⟩
    exact ⟨t.splitOn 46, List.splitOn_ne_nil 46 t, fun l hl => validLabel_iff.mp (hlabels l hl),
      (List.intercalate_splitOn 46).symm, hlength⟩
  · rintro ⟨labels, hne, hlabels, rfl, hlength⟩
    have hpieces := Label.pieces hne hlabels
    refine ⟨⟨⟨hpieces.ne_nil, hlength⟩, hpieces.getLast?_ne⟩, ?_⟩
    rw [hpieces.splitOn]
    exact fun l hl => validLabel_iff.mpr (hlabels l hl)

/-! ## Dotted quads -/

/-- What the loop over the components accepts. -/
def LooseQuad (t : Text) : Prop := Quad t ∨ ∃ q, Quad q ∧ t = q ++ [46]

theorem validIpv4Component_iff {t : Text} : validIpv4Component t = true ↔ Octet t := by
  simp only [validIpv4Component, Bool.and_eq_true, decide_eq_true_eq, List.all_eq_true]
  constructor
  · rintro ⟨⟨⟨hne, hlength⟩, hdigits⟩, hvalue⟩
    exact ⟨hne, hlength, hdigits, hvalue⟩
  · intro h
    exact ⟨⟨⟨h.nonempty, h.length⟩, h.digits⟩, h.value⟩

theorem Octet.pieces {octets : List Text} (hne : octets ≠ []) (h : ∀ octet ∈ octets, Octet octet) :
    Pieces 46 octets where
  notNil := hne
  nonempty octet ho := (h octet ho).nonempty
  free octet ho hdot := absurd ((h octet ho).digits 46 hdot) (by decide)

theorem validIpv4Address_iff {t : Text} : validIpv4Address t = true ↔ LooseQuad t := by
  simp only [validIpv4Address, Bool.and_eq_true, List.all_eq_true, beq_iff_eq]
  constructor
  · intro h
    split at h
    · rename_i hlast
      obtain ⟨front, hfront⟩ := List.getLast?_eq_some_iff.mp hlast
      rw [hfront, List.dropLast_concat] at h
      have hne : front ≠ [] := by
        rintro rfl
        simp at h
      refine .inr ⟨[46].intercalate front,
        ⟨front, h.2, fun o ho => validIpv4Component_iff.mp (h.1 o ho), rfl⟩, ?_⟩
      have hsplit : [46].intercalate (t.splitOn 46) = t := List.intercalate_splitOn 46
      rw [← hsplit, hfront, Joined.intercalate_concat hne]
    · exact .inl ⟨t.splitOn 46, h.2, fun o ho => validIpv4Component_iff.mp (h.1 o ho),
        (List.intercalate_splitOn 46).symm⟩
  · rintro (⟨octets, hcount, hoctets, rfl⟩ | ⟨-, ⟨octets, hcount, hoctets, rfl⟩, rfl⟩)
    · have hne : octets ≠ [] := by rintro rfl; cases hcount
      have hlast : octets.getLast? ≠ some [] := fun hl =>
        (hoctets [] (List.mem_of_getLast? hl)).nonempty rfl
      rw [(Octet.pieces hne hoctets).splitOn, if_neg hlast]
      exact ⟨fun o ho => validIpv4Component_iff.mpr (hoctets o ho), hcount⟩
    · have hne : octets ≠ [] := by rintro rfl; cases hcount
      have hpieces := Octet.pieces hne hoctets
      have hsplit : ([46].intercalate octets ++ [46] : Text).splitOn 46 = octets ++ [[]] := by
        rw [List.splitOn_append_cons_self, hpieces.splitOn, List.splitOn_nil]
      rw [hsplit, if_pos (by simp), List.dropLast_concat]
      exact ⟨fun o ho => validIpv4Component_iff.mpr (hoctets o ho), hcount⟩

/-! ## IPv6 literals -/

theorem Quad.ne_nil {t : Text} (h : Quad t) : t ≠ [] := by
  obtain ⟨octets, hcount, hoctets, rfl⟩ := h
  have hne : octets ≠ [] := by rintro rfl; cases hcount
  exact (Octet.pieces hne hoctets).ne_nil

theorem Quad.bytes {t : Text} (h : Quad t) : ∀ b ∈ t, b = 46 ∨ isDigit b = true := by
  obtain ⟨octets, -, hoctets, rfl⟩ := h
  intro b hb
  exact (Joined.mem_intercalate hb).imp id fun ⟨octet, ho, hb⟩ => (hoctets octet ho).digits b hb

theorem Quad.dot_mem {t : Text} (h : Quad t) : 46 ∈ t := by
  obtain ⟨octets, hcount, hoctets, rfl⟩ := h
  match octets, hcount with
  | a :: rest, hcount =>
    have hrest : rest ≠ [] := by rintro rfl; cases hcount
    rw [Joined.intercalate_cons hrest]
    simp

theorem Quad.getLast?_ne {t : Text} (h : Quad t) : t.getLast? ≠ some 46 := by
  obtain ⟨octets, hcount, hoctets, rfl⟩ := h
  have hne : octets ≠ [] := by rintro rfl; cases hcount
  exact (Octet.pieces hne hoctets).getLast?_ne

/-- What is used of the texts that may stand for the last two groups. -/
structure QuadLike (quad : Text → Prop) : Prop where
  nonempty : ∀ {t}, quad t → t ≠ []
  bytes : ∀ {t}, quad t → ∀ b ∈ t, b = 46 ∨ isDigit b = true
  dot : ∀ {t}, quad t → 46 ∈ t

theorem quadLike_false : QuadLike fun _ => False := ⟨False.elim, False.elim, False.elim⟩

theorem quadLike_loose : QuadLike LooseQuad where
  nonempty := by
    rintro t (h | ⟨q, h, rfl⟩)
    · exact h.ne_nil
    · simp
  bytes := by
    rintro t (h | ⟨q, h, rfl⟩)
    · exact h.bytes
    · intro b hb
      rcases List.mem_append.mp hb with hb | hb
      · exact h.bytes b hb
      · exact .inl (List.mem_singleton.mp hb)
  dot := by
    rintro t (h | ⟨q, h, rfl⟩)
    · exact h.dot_mem
    · simp

section Literals

variable {quad : Text → Prop}

theorem Group.free {t : Text} (h : Group t) : 58 ∉ t ∧ 46 ∉ t :=
  ⟨fun hb => absurd (h.digits 58 hb) (by decide), fun hb => absurd (h.digits 46 hb) (by decide)⟩

theorem Group.pieces {groups : List Text} (hne : groups ≠ []) (h : ∀ group ∈ groups, Group group) :
    Pieces 58 groups :=
  ⟨hne, fun g hg => (h g hg).nonempty, fun g hg => (h g hg).free.1⟩

theorem QuadLike.pieces (hquad : QuadLike quad) {groups : List Text} {q : Text}
    (h : ∀ group ∈ groups, Group group) (hq : quad q) : Pieces 58 (groups ++ [q]) := by
  refine ⟨by simp, fun g hg => ?_, fun g hg => ?_⟩
  · rcases List.mem_append.mp hg with hg | hg
    · exact (h g hg).nonempty
    · rw [List.mem_singleton.mp hg]
      exact hquad.nonempty hq
  · rcases List.mem_append.mp hg with hg | hg
    · exact (h g hg).free.1
    · rw [List.mem_singleton.mp hg]
      intro hcolon
      rcases hquad.bytes hq 58 hcolon with hb | hb
      · cases hb
      · exact absurd hb (by decide)

/-- The pieces of a sequence of groups. -/
theorem Groups.pieces (hquad : QuadLike quad) {t : Text} {n : ℕ} (h : Groups quad t n) :
    t = [] ∧ n = 0 ∨ ∃ groups, Pieces 58 groups ∧ t = [58].intercalate groups := by
  cases h with
  | @hex groups hgroups =>
    by_cases hne : groups = []
    · subst hne
      exact .inl ⟨rfl, rfl⟩
    · exact .inr ⟨groups, Group.pieces hne hgroups, rfl⟩
  | @tail groups q hgroups hq => exact .inr ⟨groups ++ [q], hquad.pieces hgroups hq, rfl⟩

theorem countGroups_eq_some_iff {allow : Bool} {pieces : List Text} {n : ℕ} :
    countGroups allow pieces = some n ↔
      ((∀ group ∈ pieces, Group group) ∧ n = pieces.length) ∨
        (allow = true ∧ ∃ groups q, pieces = groups ++ [q] ∧ (∀ group ∈ groups, Group group) ∧
          LooseQuad q ∧ n = groups.length + 2) := by
  induction pieces generalizing n with
  | nil =>
    simp only [countGroups, Option.some.injEq]
    constructor
    · rintro rfl
      exact .inl ⟨by simp, rfl⟩
    · rintro (⟨-, rfl⟩ | ⟨-, groups, q, hnil, -⟩)
      · rfl
      · simp at hnil
  | cons piece rest ih =>
    simp only [countGroups]
    by_cases hnil : piece = []
    · rw [if_pos hnil]
      constructor
      · intro h; cases h
      · subst hnil
        rintro (⟨h, -⟩ | ⟨-, groups, q, hpieces, h, hq, -⟩)
        · exact absurd rfl (h [] (by simp)).nonempty
        · cases groups with
          | nil =>
            cases hpieces
            exact absurd rfl (quadLike_loose.nonempty hq)
          | cons g groups =>
            cases hpieces
            exact absurd rfl (h [] (by simp)).nonempty
    rw [if_neg hnil]
    by_cases hdot : 46 ∈ piece
    · rw [if_pos hdot]
      constructor
      · intro h
        split at h
        · rename_i hv
          simp only [Bool.and_eq_true, List.isEmpty_iff] at hv
          obtain ⟨⟨hallow, rfl⟩, hv⟩ := hv
          cases h
          exact .inr ⟨hallow, [], piece, rfl, by simp, validIpv4Address_iff.mp hv, rfl⟩
        · cases h
      · rintro (⟨h, -⟩ | ⟨hallow, groups, q, hpieces, h, hq, rfl⟩)
        · exact absurd hdot (h piece (by simp)).free.2
        · cases groups with
          | nil =>
            cases hpieces
            simp [hallow, validIpv4Address_iff.mpr hq]
          | cons g groups =>
            cases hpieces
            exact absurd hdot (h piece (by simp)).free.2
    rw [if_neg hdot]
    by_cases hgroup : piece.length ≤ 4 ∧ piece.all isXDigit = true
    · have hg : Group piece := ⟨hnil, hgroup.1, List.all_eq_true.mp hgroup.2⟩
      rw [if_pos hgroup, Option.map_eq_some_iff]
      constructor
      · rintro ⟨m, hm, rfl⟩
        rcases ih.mp hm with ⟨h, rfl⟩ | ⟨hallow, groups, q, rfl, h, hq, rfl⟩
        · exact .inl ⟨List.forall_mem_cons.mpr ⟨hg, h⟩, rfl⟩
        · exact .inr ⟨hallow, piece :: groups, q, rfl, List.forall_mem_cons.mpr ⟨hg, h⟩, hq, rfl⟩
      · rintro (⟨h, rfl⟩ | ⟨hallow, groups, q, hpieces, h, hq, rfl⟩)
        · exact ⟨rest.length, ih.mpr (.inl ⟨(List.forall_mem_cons.mp h).2, rfl⟩), rfl⟩
        · cases groups with
          | nil =>
            cases hpieces
            exact absurd (quadLike_loose.dot hq) hdot
          | cons g groups =>
            cases hpieces
            exact ⟨groups.length + 2, ih.mpr (.inr ⟨hallow, groups, q, rfl,
              (List.forall_mem_cons.mp h).2, hq, rfl⟩), rfl⟩
    · rw [if_neg hgroup]
      constructor
      · intro h; cases h
      · rintro (⟨h, -⟩ | ⟨-, groups, q, hpieces, h, hq, -⟩)
        · have hg := h piece (by simp)
          exact absurd ⟨hg.length, List.all_eq_true.mpr hg.digits⟩ hgroup
        · cases groups with
          | nil =>
            cases hpieces
            exact absurd (quadLike_loose.dot hq) hdot
          | cons g groups =>
            cases hpieces
            have hg := h piece (by simp)
            exact absurd ⟨hg.length, List.all_eq_true.mpr hg.digits⟩ hgroup

/-- What may stand for the last two groups, left and right of the `::`. -/
def tailOf (allow : Bool) (t : Text) : Prop := allow = true ∧ LooseQuad t

theorem quadLike_tailOf (allow : Bool) : QuadLike (tailOf allow) :=
  ⟨fun h => quadLike_loose.nonempty h.2, fun h => quadLike_loose.bytes h.2,
    fun h => quadLike_loose.dot h.2⟩

theorem countIpv6Groups_of_pieces {allow : Bool} {pieces : List Text} (h : Pieces 58 pieces) :
    countIpv6Groups ([58].intercalate pieces) allow = countGroups allow pieces := by
  rw [countIpv6Groups, if_neg h.ne_nil, if_neg h.getLast?_ne, h.splitOn]

theorem countIpv6Groups_eq_some_iff {allow : Bool} {t : Text} {n : ℕ} :
    countIpv6Groups t allow = some n ↔ Groups (tailOf allow) t n := by
  constructor
  · intro h
    unfold countIpv6Groups at h
    split at h
    · rename_i hnil
      cases h
      rw [hnil]
      exact .hex (by simp : ∀ group ∈ ([] : List Text), Group group)
    · split at h
      · cases h
      · have hsplit : [58].intercalate (t.splitOn 58) = t := List.intercalate_splitOn 58
        rw [← hsplit]
        rcases countGroups_eq_some_iff.mp h with ⟨hgroups, rfl⟩ |
          ⟨hallow, groups, q, hpieces, hgroups, hq, rfl⟩
        · exact .hex hgroups
        · rw [hpieces]
          exact .tail hgroups ⟨hallow, hq⟩
  · intro h
    cases h with
    | @hex groups hgroups =>
      by_cases hne : groups = []
      · subst hne
        rfl
      · rw [countIpv6Groups_of_pieces (Group.pieces hne hgroups)]
        exact countGroups_eq_some_iff.mpr (.inl ⟨hgroups, rfl⟩)
    | @tail groups q hgroups hq =>
      rw [countIpv6Groups_of_pieces ((quadLike_tailOf allow).pieces hgroups hq)]
      exact countGroups_eq_some_iff.mpr (.inr ⟨hq.1, groups, q, rfl, hgroups, hq.2, rfl⟩)

/-! ### The compression -/

theorem cutCompression_append {l : Text} (hnone : cutCompression l = none)
    (hlast : l.getLast? ≠ some 58) (r : Text) :
    cutCompression (l ++ 58 :: 58 :: r) = some (l, r) := by
  fun_induction cutCompression l with
  | case1 => simp [cutCompression]
  | case2 a =>
    have ha : a ≠ 58 := by simpa using hlast
    simp [cutCompression, ha]
  | case3 a b rest hc => cases hnone
  | case4 a b rest hc ih =>
    have ih := ih (by simpa using hnone) (by simpa [List.getLast?_cons_cons] using hlast)
    rw [List.cons_append, List.cons_append, cutCompression, if_neg hc, ← List.cons_append, ih]
    rfl

theorem cutCompression_pieces {pieces : List Text} (h : Pieces 58 pieces) :
    cutCompression ([58].intercalate pieces) = none := by
  cases hcut : cutCompression ([58].intercalate pieces) with
  | none => rfl
  | some p => exact absurd (cutCompression_eq hcut) (h.not_double p.1 p.2)

/-- A sequence of groups has no `::`, and no colon at its end. -/
theorem Groups.cutCompression (hquad : QuadLike quad) {t : Text} {n : ℕ} (h : Groups quad t n) :
    Routing.cutCompression t = none ∧ t.getLast? ≠ some 58 := by
  rcases h.pieces hquad with ⟨rfl, rfl⟩ | ⟨pieces, hpieces, rfl⟩
  · exact ⟨rfl, by simp⟩
  · exact ⟨cutCompression_pieces hpieces, hpieces.getLast?_ne⟩

theorem Groups.mono {quad' : Text → Prop} (hquad : ∀ t, quad t → quad' t) {t : Text} {n : ℕ}
    (h : Groups quad t n) : Groups quad' t n := by
  cases h with
  | hex h => exact .hex h
  | tail h hq => exact .tail h (hquad _ hq)

theorem validIpv6Literal_iff {t : Text} : validIpv6Literal t = true ↔ Ipv6 LooseQuad t := by
  have hfalse : ∀ t, tailOf false t → False := fun t h => by cases h.1
  have htrue : ∀ t, tailOf true t → LooseQuad t := fun t h => h.2
  constructor
  · intro h
    unfold validIpv6Literal at h
    split at h
    · cases h
    · split at h
      · exact .full ((countIpv6Groups_eq_some_iff.mp (beq_iff_eq.mp h)).mono htrue)
      · rename_i left right hcut
        split at h
        · cases h
        · split at h
          · rename_i m n hleft hright
            rw [cutCompression_eq hcut]
            exact .compressed ((countIpv6Groups_eq_some_iff.mp hleft).mono hfalse)
              ((countIpv6Groups_eq_some_iff.mp hright).mono htrue) (by simpa using h)
          · cases h
  · intro h
    unfold validIpv6Literal
    cases h with
    | full h =>
      have hne : t ≠ [] := by
        rintro rfl
        have hcount := countIpv6Groups_eq_some_iff.mpr (h.mono fun t hq => ⟨rfl, hq⟩)
        cases hcount
      rw [if_neg hne, (h.cutCompression quadLike_loose).1]
      simp only []
      rw [countIpv6Groups_eq_some_iff.mpr (h.mono fun t hq => ⟨rfl, hq⟩)]
      rfl
    | @compressed l r m n hl hr hlt =>
      obtain ⟨hnone, hlast⟩ := hl.cutCompression quadLike_false
      rw [if_neg (by simp), cutCompression_append hnone hlast]
      simp only [(hr.cutCompression quadLike_loose).1, Option.isSome_none, Bool.false_eq_true,
        if_false]
      rw [countIpv6Groups_eq_some_iff.mpr (hl.mono fun _ hq => hq.elim),
        countIpv6Groups_eq_some_iff.mpr (hr.mono fun t hq => ⟨rfl, hq⟩)]
      simpa using hlt

end Literals

/-! ## A dot behind the quad -/

theorem Groups.dot_not_mem {t : Text} {n : ℕ} (h : Groups (fun _ => False) t n) : 46 ∉ t := by
  cases h with
  | @hex groups hgroups =>
    intro hdot
    rcases Joined.mem_intercalate hdot with hdot | ⟨g, hg, hdot⟩
    · cases hdot
    · exact (hgroups g hg).free.2 hdot
  | tail _ hq => exact hq.elim

theorem Groups.getLast?_ne {t : Text} {n : ℕ} (h : Groups Quad t n) : t.getLast? ≠ some 46 := by
  cases h with
  | @hex groups hgroups =>
    intro hlast
    have hdot : (46 : UInt8) ∉ [58].intercalate groups :=
      Groups.dot_not_mem (.hex hgroups)
    exact hdot (List.mem_of_getLast? hlast)
  | @tail groups q hgroups hq =>
    obtain ⟨front, b, rfl⟩ := (List.eq_nil_or_concat' q).resolve_left hq.ne_nil
    rw [Joined.intercalate_append_last, List.getLast?_concat]
    have hlast := hq.getLast?_ne
    rwa [List.getLast?_concat] at hlast

theorem groups_loose_iff {t : Text} {n : ℕ} :
    Groups LooseQuad t n ↔ Groups Quad t n ∨ ∃ a, Groups Quad a n ∧ 46 ∈ a ∧ t = a ++ [46] := by
  constructor
  · intro h
    cases h with
    | hex h => exact .inl (.hex h)
    | @tail groups q h hq =>
      rcases hq with hq | ⟨q, hq, rfl⟩
      · exact .inl (.tail h hq)
      · refine .inr ⟨_, .tail h hq, ?_, Joined.intercalate_append_last groups q [46]⟩
        exact Joined.mem_intercalate_of_mem (show q ∈ groups ++ [q] by simp) hq.dot_mem
  · rintro (h | ⟨a, h, hdot, rfl⟩)
    · exact h.mono fun _ hq => .inl hq
    · cases h with
      | hex h => exact absurd hdot (Groups.dot_not_mem (.hex h))
      | @tail groups q h hq =>
        rw [← Joined.intercalate_append_last]
        exact .tail h (.inr ⟨q, hq, rfl⟩)

theorem ipv6_loose_iff {t : Text} :
    Ipv6 LooseQuad t ↔ Ipv6 Quad t ∨ ∃ a, Ipv6 Quad a ∧ 46 ∈ a ∧ t = a ++ [46] := by
  constructor
  · intro h
    cases h with
    | full h =>
      rcases groups_loose_iff.mp h with hstrict | ⟨a, hstrict, hdot, rfl⟩
      · exact .inl (.full hstrict)
      · exact .inr ⟨a, .full hstrict, hdot, rfl⟩
    | @compressed l r m n hl hr hlt =>
      rcases groups_loose_iff.mp hr with hstrict | ⟨a, hstrict, hdot, rfl⟩
      · exact .inl (.compressed hl hstrict hlt)
      · exact .inr ⟨_, .compressed hl hstrict hlt, by simp [hdot], by simp⟩
  · rintro (h | ⟨a, h, hdot, rfl⟩)
    · cases h with
      | full h => exact .full (groups_loose_iff.mpr (.inl h))
      | compressed hl hr hlt => exact .compressed hl (groups_loose_iff.mpr (.inl hr)) hlt
    · cases h with
      | full h => exact .full (groups_loose_iff.mpr (.inr ⟨a, h, hdot, rfl⟩))
      | @compressed l r m n hl hr hlt =>
        rw [List.append_assoc, List.cons_append, List.cons_append]
        have hr' : 46 ∈ r := by
          simp only [List.mem_append, List.mem_cons] at hdot
          rcases hdot with hdot | hdot | hdot | hdot
          · exact absurd hdot hl.dot_not_mem
          · cases hdot
          · cases hdot
          · exact hdot
        exact .compressed hl (groups_loose_iff.mpr (.inr ⟨r, hr, hr', rfl⟩)) hlt

theorem Ipv6.getLast?_ne {t : Text} (h : Ipv6 Quad t) : t.getLast? ≠ some 46 := by
  cases h with
  | full h => exact h.getLast?_ne
  | @compressed l r m n hl hr hlt =>
    by_cases hnil : r = []
    · subst hnil
      simp
    · rw [List.getLast?_append_of_ne_nil _ (by simp), List.getLast?_cons_cons,
        List.getLast?_cons_of_ne_nil hnil]
      exact hr.getLast?_ne

/-! ## Authorities -/

theorem host_of_hostOf {s t : Text} {allowPort : Bool} (h : hostOf s allowPort = some t) :
    ∃ text part, Host LooseQuad text (t.map lower) ∧ PortPart part ∧ s = text ++ part ∧
      (allowPort = false → part = []) := by
  unfold hostOf at h
  split at h
  · rename_i rest
    split at h
    · cases h
    · rename_i host remainder hcut
      simp only [Option.ite_none_right_eq_some, Bool.and_eq_true, Option.some.injEq] at h
      obtain ⟨⟨hport, hv⟩, rfl⟩ := h
      refine ⟨91 :: host ++ [93], remainder, .ipv6 (validIpv6Literal_iff.mp hv), ?_, ?_, ?_⟩
      · cases remainder with
        | nil => exact .none
        | cons c port =>
          simp only [Bool.and_eq_true, beq_iff_eq] at hport
          obtain ⟨⟨-, rfl⟩, hport⟩ := hport
          exact .some (validPort_iff.mp hport)
      · rw [eq_of_cut hcut]
        simp
      · rintro rfl
        cases remainder with
        | nil => rfl
        | cons c port => simp at hport
  · dsimp only at h
    have hname : ∀ name : Text, (if validDnsName (if name.getLast? = some 46 then name.dropLast
        else name) = true then some (if name.getLast? = some 46 then name.dropLast else name)
        else none) = some t → Host LooseQuad name (t.map lower) := by
      intro name hname
      rw [Option.ite_none_right_eq_some, Option.some.injEq] at hname
      obtain ⟨hv, hname⟩ := hname
      rw [hname] at hv
      split at hname
      · rename_i hdot
        rw [← List.dropLast_append_getLast? 46 hdot, hname]
        exact .dotted (validDnsName_iff.mp hv)
      · rw [hname]
        exact .name (validDnsName_iff.mp hv)
    cases hcut : cut 58 s with
    | none =>
      rw [hcut] at h
      exact ⟨s, [], hname s h, .none, by simp, fun _ => rfl⟩
    | some p =>
      obtain ⟨name, port⟩ := p
      rw [hcut] at h
      simp only [] at h
      by_cases hport : (allowPort && !port.contains 58 && validPort port) = true
      · rw [if_pos hport] at h
        simp only [Bool.and_eq_true] at hport
        refine ⟨name, 58 :: port, hname name h, .some (validPort_iff.mp hport.2), eq_of_cut hcut, ?_⟩
        intro hfalse
        rw [hfalse] at hport
        cases hport.1.1
      · rw [if_neg hport] at h
        cases h

theorem DnsName.bytes {t : Text} (h : DnsName t) :
    ∀ b ∈ t, isAlnum b = true ∨ b = 45 ∨ b = 46 := by
  obtain ⟨labels, -, hlabels, rfl, -⟩ := h
  intro b hb
  rcases Joined.mem_intercalate hb with rfl | ⟨label, hl, hb⟩
  · exact .inr (.inr rfl)
  · exact ((hlabels label hl).bytes b hb).imp id .inl

theorem DnsName.free {t : Text} (h : DnsName t) : 58 ∉ t ∧ 91 ∉ t := by
  constructor
  · intro hb
    rcases h.bytes 58 hb with hb | hb | hb
    · exact absurd hb (by decide)
    · cases hb
    · cases hb
  · intro hb
    rcases h.bytes 91 hb with hb | hb | hb
    · exact absurd hb (by decide)
    · cases hb
    · cases hb

theorem DnsName.pieces {t : Text} (h : DnsName t) : t ≠ [] ∧ t.getLast? ≠ some 46 := by
  obtain ⟨labels, hne, hlabels, rfl, -⟩ := h
  have hpieces := Label.pieces hne hlabels
  exact ⟨hpieces.ne_nil, hpieces.getLast?_ne⟩

theorem allowed_of_port {allowPort : Bool} {port : Text} (h : allowPort = false → 58 :: port = []) :
    allowPort = true := by
  cases allowPort with
  | true => rfl
  | false => cases h rfl

/-- A text without a colon or a bracket, read as a name. -/
theorem hostOf_name {text part : Text} (hfree : 58 ∉ text ∧ 91 ∉ text) (hne : text ≠ [])
    (hpart : PortPart part) {allowPort : Bool} (hallow : allowPort = false → part = []) :
    hostOf (text ++ part) allowPort =
      if validDnsName (if text.getLast? = some 46 then text.dropLast else text) = true then
        some (if text.getLast? = some 46 then text.dropLast else text)
      else none := by
  obtain ⟨c, rest, rfl⟩ := List.exists_cons_of_ne_nil hne
  have hc : c ≠ 91 := by
    rintro rfl
    exact hfree.2 (by simp)
  unfold hostOf
  split
  · rename_i rest' heq
    cases heq
    exact absurd rfl hc
  · cases hpart with
    | none =>
      have hcut : cut 58 (c :: rest) = none := by
        cases hcut : cut 58 (c :: rest) with
        | none => rfl
        | some p => exact absurd (by rw [eq_of_cut hcut]; simp) hfree.1
      rw [List.append_nil, hcut]
    | @some port hport =>
      have htrue := allowed_of_port hallow
      have hcut : cut 58 (c :: rest ++ 58 :: port) = .some (c :: rest, port) :=
        cut_append (fun b hb (hbc : b = 58) => hfree.1 (hbc ▸ hb)) port
      have hcolon : port.contains 58 = false := by
        rw [List.contains_eq_mem, decide_eq_false_iff_not]
        intro hcolon
        exact absurd (hport.digits 58 hcolon) (by decide)
      rw [hcut]
      simp only [htrue, hcolon, validPort_iff.mpr hport, Bool.not_false, Bool.and_self, if_true]

theorem hostOf_of_host {text part host : Text} (h : Host LooseQuad text host) (hpart : PortPart part)
    {allowPort : Bool} (hallow : allowPort = false → part = []) :
    ∃ t, hostOf (text ++ part) allowPort = some t ∧ host = t.map lower := by
  cases h with
  | name h =>
    refine ⟨text, ?_, rfl⟩
    rw [hostOf_name h.free h.pieces.1 hpart hallow, if_neg h.pieces.2,
      if_pos (validDnsName_iff.mpr h)]
  | @dotted t h =>
    refine ⟨t, ?_, rfl⟩
    have hfree : (58 : UInt8) ∉ t ++ [46] ∧ 91 ∉ t ++ [46] := by simp [h.free]
    have hlast : (t ++ [46]).getLast? = some 46 := by simp
    rw [hostOf_name hfree (by simp) hpart hallow]
    simp only [hlast, if_true, List.dropLast_concat, validDnsName_iff.mpr h]
  | @ipv6 t h =>
    refine ⟨t, ?_, rfl⟩
    have hv := validIpv6Literal_iff.mpr h
    have hfree : ∀ b ∈ t, b ≠ 93 := by
      rintro b hb rfl
      have hbyte := validIpv6Literal_bytes hv 93 hb
      cases hbyte
    have hcut : cut 93 (t ++ 93 :: part) = some (t, part) := cut_append hfree part
    have htext : 91 :: t ++ [93] ++ part = 91 :: (t ++ 93 :: part) := by simp
    rw [htext, hostOf, hcut]
    cases hpart with
    | none => simp only [hv, Bool.and_self, if_true]
    | some hport =>
      have htrue := allowed_of_port hallow
      simp only [htrue, beq_self_eq_true, validPort_iff.mpr hport, hv, Bool.and_self, if_true]

theorem hostOf_eq_some_iff {s host : Text} {allowPort : Bool} :
    (∃ t, hostOf s allowPort = some t ∧ host = t.map lower) ↔
      ∃ text part, Host LooseQuad text host ∧ PortPart part ∧ s = text ++ part ∧
        (allowPort = false → part = []) := by
  constructor
  · rintro ⟨t, h, rfl⟩
    exact host_of_hostOf h
  · rintro ⟨text, part, h, hpart, rfl, hallow⟩
    exact hostOf_of_host h hpart hallow

theorem authorityByte_visible {b : UInt8} (h : isAuthorityByte b = true) :
    (decide (b ≤ 32) || decide (127 ≤ b)) = false := by
  have hall : ∀ n < 256, isAuthorityByte (UInt8.ofNat n) = true →
      (decide (UInt8.ofNat n ≤ 32) || decide (127 ≤ UInt8.ofNat n)) = false := by decide +kernel
  have hb := hall b.toNat b.toNat_lt
  rw [UInt8.ofNat_toNat] at hb
  exact hb h

/-- The first test of `normalize` refuses nothing that would be accepted otherwise. -/
theorem normalize_eq_some_iff {s host : Text} {allowPort : Bool} :
    normalize s allowPort = some host ↔ ∃ t, hostOf s allowPort = some t ∧ host = t.map lower := by
  unfold normalize
  constructor
  · intro h
    split at h
    · cases h
    · obtain ⟨t, ht, rfl⟩ := Option.map_eq_some_iff.mp h
      exact ⟨t, ht, rfl⟩
  · rintro ⟨t, ht, rfl⟩
    have hbytes := hostOf_authorityBytes ht
    have hfits : ¬ (s = [] ∨ s.any (fun b => decide (b ≤ 32) || decide (127 ≤ b)) = true) := by
      rintro (rfl | hany)
      · cases ht
      · obtain ⟨b, hb, hbad⟩ := List.any_eq_true.mp hany
        rw [authorityByte_visible (hbytes b hb)] at hbad
        cases hbad
    rw [if_neg hfits, ht]
    rfl

theorem normalizeAuthority_eq_some_iff {s host : Text} :
    normalizeAuthority s = some host ↔ Authority LooseQuad s host := by
  rw [normalizeAuthority, normalize_eq_some_iff, hostOf_eq_some_iff]
  constructor
  · rintro ⟨text, part, h, hpart, hs, -⟩
    exact ⟨text, part, h, hpart, hs⟩
  · rintro ⟨text, part, h, hpart, hs⟩
    exact ⟨text, part, h, hpart, hs, fun hfalse => by cases hfalse⟩

theorem normalizeDomain_eq_some_iff {s host : Text} :
    normalizeDomain s = some host ↔ Host LooseQuad s host := by
  rw [normalizeDomain, normalize_eq_some_iff, hostOf_eq_some_iff]
  constructor
  · rintro ⟨text, part, h, -, rfl, hpart⟩
    rw [hpart rfl, List.append_nil]
    exact h
  · intro h
    exact ⟨s, [], h, .none, by simp, fun _ => rfl⟩

/-! ## Domains that are normalized again -/

theorem lower_labelByte : ∀ n < 256,
    (isAlnum (UInt8.ofNat n) = true ∨ UInt8.ofNat n = 45 →
      isAlnum (lower (UInt8.ofNat n)) = true ∨ lower (UInt8.ofNat n) = 45) ∧
    (lower (UInt8.ofNat n) = 45 → UInt8.ofNat n = 45) := by decide +kernel

theorem Label.lower {t : Text} (h : Label t) : Label (t.map Http.lower) := by
  have hbyte : ∀ b : UInt8, (isAlnum b = true ∨ b = 45 →
      isAlnum (Http.lower b) = true ∨ Http.lower b = 45) ∧ (Http.lower b = 45 → b = 45) := by
    intro b
    simpa using lower_labelByte b.toNat b.toNat_lt
  refine ⟨by simpa using h.nonempty, by simpa using h.length, ?_, ?_, ?_⟩
  · intro b hb
    obtain ⟨c, hc, rfl⟩ := List.mem_map.mp hb
    exact (hbyte c).1 (h.bytes c hc)
  · rw [List.head?_map]
    intro hfirst
    obtain ⟨b, hb, hhyphen⟩ := Option.map_eq_some_iff.mp hfirst
    exact h.first ((hbyte b).2 hhyphen ▸ hb)
  · rw [List.getLast?_map]
    intro hlast
    obtain ⟨b, hb, hhyphen⟩ := Option.map_eq_some_iff.mp hlast
    exact h.last ((hbyte b).2 hhyphen ▸ hb)

theorem DnsName.lower {t : Text} (h : DnsName t) : DnsName (t.map Http.lower) := by
  obtain ⟨labels, hne, hlabels, rfl, hlength⟩ := h
  refine ⟨labels.map (List.map Http.lower), by simpa using hne, ?_,
    Joined.map_intercalate _ (by decide) _, by simpa using hlength⟩
  intro label hlabel
  obtain ⟨l, hl, rfl⟩ := List.mem_map.mp hlabel
  exact (hlabels l hl).lower

theorem host_head? {t host : Text} (h : Host LooseQuad t host) :
    (t.head? ≠ some 91 ∧ ∃ name, DnsName name ∧ host = name.map lower) ∨
      ∃ a, Ipv6 LooseQuad a ∧ t = 91 :: a ++ [93] ∧ host = a.map lower := by
  have hfirst : ∀ {t : Text}, DnsName t → ∀ rest, (t ++ rest).head? ≠ some 91 := by
    intro t ht rest hhead
    rw [List.head?_append_of_ne_nil _ ht.pieces.1] at hhead
    exact ht.free.2 (List.mem_of_head? hhead)
  cases h with
  | name h => exact .inl ⟨by simpa using hfirst h [], t, h, rfl⟩
  | @dotted name h => exact .inl ⟨hfirst h [46], name, h, rfl⟩
  | @ipv6 a h => exact .inr ⟨a, h, rfl, rfl⟩

/-- A name that was normalized is normalized to itself. -/
theorem normalizeDomain_stable {t d : Text} (h : normalizeDomain t = some d)
    (ht : t.head? ≠ some 91) : normalizeDomain d = some d := by
  rcases host_head? (normalizeDomain_eq_some_iff.mp h) with ⟨-, name, hname, rfl⟩ | ⟨a, -, rfl, -⟩
  · rw [normalizeDomain_eq_some_iff]
    have hagain : (name.map lower).map lower = name.map lower := by
      rw [List.map_map]
      exact List.map_congr_left fun b _ => lower_lower b
    have hhost : Host LooseQuad _ _ := .name hname.lower
    rwa [hagain] at hhost
  · exact absurd rfl ht

/-- What stands between the brackets, in lower case. -/
def unbracketed (t : Text) : Text := t.tail.dropLast.map lower

/-- An IPv6 literal loses its brackets, and is no domain any more. -/
theorem normalizeDomain_bracketed {t d : Text} (h : normalizeDomain t = some d)
    (ht : t.head? = some 91) : d = unbracketed t ∧ 58 ∈ d ∧ normalizeDomain d = none := by
  rcases host_head? (normalizeDomain_eq_some_iff.mp h) with ⟨hname, -⟩ | ⟨a, ha, rfl, hd⟩
  · exact absurd ht hname
  · have hcolon : 58 ∈ d := by
      rw [hd]
      exact List.mem_map.mpr ⟨58, colon_mem_of_validIpv6Literal (validIpv6Literal_iff.mpr ha),
        by decide⟩
    refine ⟨by simp [unbracketed, hd], hcolon, ?_⟩
    cases hagain : normalizeDomain d with
    | none => rfl
    | some host =>
      obtain ⟨name, hname, -⟩ := normalize_eq_some_iff.mp hagain
      exact absurd hcolon (hostOf_hostBytes (normalize_bytes h) hname).1

/-! ## Where the normalizer meets the grammar -/

/-- What `HostNormalizer` should do with the text. -/
structure Meets (s : Text) : Prop where
  authority : ∀ host, normalizeAuthority s = some host ↔ Authority Quad s host
  domain : ∀ host, normalizeDomain s = some host ↔ Host Quad s host
  agree : (normalizeAuthority s).isSome →
    (normalizeDomain s = normalizeAuthority s ↔ ∃ host, Host Quad s host)

/-- The text has a dot between the dotted quad and the bracket; without it, it is in the grammar. -/
def DotBeforeBracket (s : Text) : Prop :=
  ∃ a part, Ipv6 Quad a ∧ 46 ∈ a ∧ PortPart part ∧ s = 91 :: a ++ [46, 93] ++ part

theorem host_loose_iff {s host : Text} :
    Host LooseQuad s host ↔ Host Quad s host ∨
      ∃ a, Ipv6 Quad a ∧ 46 ∈ a ∧ s = 91 :: a ++ [46, 93] ∧ host = (a ++ [46]).map lower := by
  constructor
  · intro h
    cases h with
    | name h => exact .inl (.name h)
    | dotted h => exact .inl (.dotted h)
    | ipv6 h =>
      rcases ipv6_loose_iff.mp h with hstrict | ⟨a, hstrict, hdot, rfl⟩
      · exact .inl (.ipv6 hstrict)
      · exact .inr ⟨a, hstrict, hdot, by simp, rfl⟩
  · rintro (h | ⟨a, h, hdot, rfl, rfl⟩)
    · cases h with
      | name h => exact .name h
      | dotted h => exact .dotted h
      | ipv6 h => exact .ipv6 (ipv6_loose_iff.mpr (.inl h))
    · have htext : 91 :: a ++ [46, 93] = 91 :: (a ++ [46]) ++ [93] := by simp
      rw [htext]
      exact .ipv6 (ipv6_loose_iff.mpr (.inr ⟨a, h, hdot, rfl⟩))

theorem authority_loose_iff {s host : Text} (h : ¬ DotBeforeBracket s) :
    Authority LooseQuad s host ↔ Authority Quad s host := by
  constructor
  · rintro ⟨t, part, hhost, hpart, rfl⟩
    rcases host_loose_iff.mp hhost with hstrict | ⟨a, ha, hdot, rfl, -⟩
    · exact ⟨t, part, hstrict, hpart, rfl⟩
    · exact absurd ⟨a, part, ha, hdot, hpart, rfl⟩ h
  · rintro ⟨t, part, hhost, hpart, rfl⟩
    exact ⟨t, part, host_loose_iff.mpr (.inl hhost), hpart, rfl⟩

/-- No text of the grammar has a dot before the bracket. -/
theorem not_authority_of_dotBeforeBracket {s host : Text} (h : DotBeforeBracket s) :
    ¬ Authority Quad s host := by
  obtain ⟨a, part, ha, hdot, -, rfl⟩ := h
  rintro ⟨t, part', hhost, -, hs⟩
  have hbracket : ∀ {a : Text}, Ipv6 Quad a → 93 ∉ a := by
    intro a ha hb
    have hbyte := validIpv6Literal_bytes (validIpv6Literal_iff.mpr (ipv6_loose_iff.mpr (.inl ha))) 93 hb
    cases hbyte
  have hfirst : ∀ {t : Text}, DnsName t → ∀ rest rest', 91 :: rest ≠ t ++ rest' := by
    rintro t ht rest rest' heq
    obtain ⟨c, t, rfl⟩ := List.exists_cons_of_ne_nil ht.pieces.1
    cases heq
    exact ht.free.2 (by simp)
  cases hhost with
  | name hname => exact hfirst hname _ _ hs
  | dotted hname => exact hfirst hname _ _ (by simpa using hs)
  | @ipv6 a' ha' =>
    have htext : (a ++ [46]) ++ 93 :: part = a' ++ 93 :: part' := by simpa using hs
    have hleft : 93 ∉ a ++ [46] := by simp [hbracket ha]
    obtain ⟨rfl, -⟩ := append_cons_inj hleft (hbracket ha') htext
    exact ha'.getLast?_ne (by simp)

/-- The normalizer accepts exactly the grammar, and gives back what the grammar says, on every text
but those with a dot between a dotted quad and the bracket. -/
theorem meets_iff (s : Text) : Meets s ↔ ¬ DotBeforeBracket s := by
  constructor
  · intro h hdot
    obtain ⟨a, part, ha, hmem, hpart, rfl⟩ := hdot
    have hloose : Authority LooseQuad (91 :: a ++ [46, 93] ++ part) ((a ++ [46]).map lower) :=
      ⟨_, part, host_loose_iff.mpr (.inr ⟨a, ha, hmem, rfl, rfl⟩), hpart, rfl⟩
    exact not_authority_of_dotBeforeBracket ⟨a, part, ha, hmem, hpart, rfl⟩
      ((h.authority _).mp (normalizeAuthority_eq_some_iff.mpr hloose))
  · intro h
    have hdomain : ∀ host, normalizeDomain s = some host ↔ Host Quad s host := by
      intro host
      rw [normalizeDomain_eq_some_iff, host_loose_iff]
      refine or_iff_left ?_
      rintro ⟨a, ha, hdot, rfl, -⟩
      exact h ⟨a, [], ha, hdot, .none, by simp⟩
    refine ⟨fun host => normalizeAuthority_eq_some_iff.trans (authority_loose_iff h), hdomain, ?_⟩
    intro hsome
    obtain ⟨host, hhost⟩ := Option.isSome_iff_exists.mp hsome
    constructor
    · intro heq
      exact ⟨host, (hdomain host).mp (heq.trans hhost)⟩
    · rintro ⟨host', hhost'⟩
      rw [(hdomain host').mpr hhost', eq_comm, normalizeAuthority_eq_some_iff, authority_loose_iff h]
      exact ⟨s, [], hhost', .none, by simp⟩

/-- The component after the last dot is not looked at. -/
theorem quad_with_final_dot :
    normalizeAuthority (ascii "[::1.2.3.4.]") = some (ascii "::1.2.3.4.") ∧
      ∀ host, ¬ Authority Quad (ascii "[::1.2.3.4.]") host := by
  refine ⟨by decide, fun host => not_authority_of_dotBeforeBracket ?_⟩
  have hquad : Quad (ascii "1.2.3.4") := by
    refine ⟨[ascii "1", ascii "2", ascii "3", ascii "4"], rfl, ?_, by decide⟩
    intro octet ho
    rw [← validIpv4Component_iff]
    revert octet ho
    decide
  have hnone : ∀ group ∈ ([] : List Text), Group group := by simp
  have htail : Groups Quad (ascii "1.2.3.4") 2 := .tail hnone hquad
  exact ⟨ascii "::1.2.3.4", [], .compressed (.hex hnone) htail (by decide),
    by decide, .none, rfl⟩

end Routing
end WebServer
