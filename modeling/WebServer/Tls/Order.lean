import WebServer.Tls.Contexts

/-!
# WebServer.Tls.Order

What the order of the certificates decides.

`ContextManager.make_ok_iff` says for all certificates at once what the constructor tests and what
it builds. Names and domains are distinct, so every lookup by server name gives the same context in
any order (`make_perm`). The order decides one thing: the default context when no certificate is
marked (`defaultCertificate`).
-/

namespace WebServer
namespace Routing
namespace HostTable

open Http
open Tls (oneLabel)

variable {α : Type}

/-- With at most one match it does not matter where the search starts. -/
theorem find?_eq_of_perm {l l' : List α} {p : α → Bool} (h : l.Perm l')
    (hunique : ∀ a ∈ l, ∀ b ∈ l, p a = true → p b = true → a = b) : l.find? p = l'.find? p := by
  cases hl : l.find? p with
  | none =>
    rw [List.find?_eq_none] at hl
    exact (List.find?_eq_none.mpr fun a ha => hl a (h.mem_iff.mpr ha)).symm
  | some a =>
    have ha := List.mem_of_find?_eq_some hl
    have hpa := List.find?_some hl
    cases hl' : l'.find? p with
    | none =>
      rw [List.find?_eq_none] at hl'
      exact absurd hpa (hl' a (h.mem_iff.mp ha))
    | some b =>
      have hb := h.mem_iff.mpr (List.mem_of_find?_eq_some hl')
      rw [hunique a ha b hb hpa (List.find?_some hl')]

theorem lookup_eq_find? (l : List (Text × α)) (host : Text) :
    l.lookup host = (l.find? fun e => e.1 == host).map Prod.snd := by
  induction l with
  | nil => rfl
  | cons e l ih =>
    obtain ⟨k, a⟩ := e
    by_cases hk : k = host
    · simp [hk]
    · have hne : (host == k) = false := beq_eq_false_iff_ne.mpr (Ne.symm hk)
      simp [List.lookup_cons, hk, hne, ih]

theorem eq_of_key_eq {l : List (Text × α)} (h : (l.map Prod.fst).Nodup) {e e' : Text × α}
    (he : e ∈ l) (he' : e' ∈ l) (hk : e.1 = e'.1) : e = e' := List.inj_on_of_nodup_map h he he' hk

/-- A host has one wildcard of its own depth. -/
theorem oneLabel_suffix_unique {host s s' : Text} (h : (subdomain s host).any oneLabel = true)
    (h' : (subdomain s' host).any oneLabel = true) : s = s' := by
  simp only [Option.any_eq_true, subdomain_eq_some_iff, oneLabel, decide_eq_true_eq] at h h'
  obtain ⟨label, hl, hdot⟩ := h
  obtain ⟨label', hl', hdot'⟩ := h'
  have hsplit : ∀ {l t : Text}, 46 ∉ l → (l ++ 46 :: t).takeWhile (· != 46) = l := by
    intro l t hl
    have hpos : ∀ b ∈ l, (b != 46) = true := fun b hb => bne_iff_ne.mpr (ne_of_mem_of_not_mem hb hl)
    rw [List.takeWhile_append_of_pos hpos]
    simp
  have hlabel : label = label' := by
    rw [← hsplit hdot (t := s), ← hl, hl', hsplit hdot']
  rw [hl, hlabel] at hl'
  simpa using List.append_cancel_left hl'

/-- Tables with the same distinct entries answer alike. -/
theorem find_eq_of_perm {t u : HostTable α} (hexact : t.exact.Perm u.exact)
    (hwildcard : t.wildcard.Perm u.wildcard) (he : (t.exact.map Prod.fst).Nodup)
    (hw : (t.wildcard.map Prod.fst).Nodup) (host : Text) :
    t.find oneLabel host = u.find oneLabel host := by
  have hlookup : t.exact.lookup host = u.exact.lookup host := by
    rw [lookup_eq_find?, lookup_eq_find?, find?_eq_of_perm hexact]
    intro e he₁ e' he₂ hk hk'
    exact eq_of_key_eq he he₁ he₂ ((beq_iff_eq.mp hk).trans (beq_iff_eq.mp hk').symm)
  have hfind : (t.wildcard.find? fun e => (subdomain e.1 host).any oneLabel) =
      u.wildcard.find? fun e => (subdomain e.1 host).any oneLabel := by
    refine find?_eq_of_perm hwildcard fun e he₁ e' he₂ hk hk' => ?_
    exact eq_of_key_eq hw he₁ he₂ (oneLabel_suffix_unique hk hk')
  unfold find
  rw [hlookup, hfind]

theorem sorted_wildcard_perm (t : HostTable α) : t.sorted.wildcard.Perm t.wildcard :=
  List.mergeSort_perm _ _

end HostTable
end Routing

namespace Tls

open Http
open Config (TlsCertificateConfig Error)
open Routing

namespace ContextManager

variable {openssl : TlsCertificateConfig → ContextHolder.Patterns → Except Error Unit}

/-! ## What the constructor tests and builds -/

/-- The contexts of the certificates, in their order. -/
def holders (openssl : TlsCertificateConfig → ContextHolder.Patterns → Except Error Unit)
    (certificates : List TlsCertificateConfig) : List ContextHolder :=
  certificates.filterMap fun c => (ContextHolder.make openssl c).toOption

def tableOf (contexts : List ContextHolder) : HostTable ContextHolder where
  exact := contexts.flatMap fun c => c.exactDomains.map fun d => (d, c)
  wildcard := contexts.flatMap fun c => c.wildcardDomains.map fun d => (d, c)

/-- The marked certificate, and the first one when none is marked. -/
def defaultCertificate (certificates : List TlsCertificateConfig) : Option TlsCertificateConfig :=
  if certificates.all fun c => !c.isDefault then certificates.head?
  else certificates.find? (·.isDefault)

structure Accepted (openssl : TlsCertificateConfig → ContextHolder.Patterns → Except Error Unit)
    (certificates : List TlsCertificateConfig) : Prop where
  nonempty : certificates ≠ []
  names : (certificates.map (·.name)).Nodup
  oneDefault : certificates.countP (·.isDefault) ≤ 1
  made : ∀ c ∈ certificates, ∃ holder, ContextHolder.make openssl c = .ok holder
  exact : ((holders openssl certificates).flatMap (·.exactDomains)).Nodup
  wildcard : ((holders openssl certificates).flatMap (·.wildcardDomains)).Nodup

theorem Accepted.perm {certificates certificates' : List TlsCertificateConfig}
    (h : Accepted openssl certificates) (hp : certificates.Perm certificates') :
    Accepted openssl certificates' where
  nonempty := fun hnil => h.nonempty (hnil ▸ hp).eq_nil
  names := (hp.map _).nodup_iff.mp h.names
  oneDefault := hp.countP_eq _ ▸ h.oneDefault
  made := fun c hc => h.made c (hp.mem_iff.mpr hc)
  exact := ((hp.filterMap _).flatMap_right _).nodup_iff.mp h.exact
  wildcard := ((hp.filterMap _).flatMap_right _).nodup_iff.mp h.wildcard

theorem inserts_addExact (holder : ContextHolder) :
    Result.Inserts (addExact holder) (fun t => t.exact.map Prod.fst)
      fun t d => { t with exact := t.exact ++ [(d, holder)] } where
  ok := by
    intro t d hd
    unfold addExact
    rw [if_neg]
    simpa [List.any_eq_true] using hd
  new := by
    intro t d t' h
    unfold addExact at h
    split at h
    · cases h
    · rename_i hd
      simpa [List.any_eq_true] using hd
  keys_put := by simp

theorem inserts_addWildcard (holder : ContextHolder) :
    Result.Inserts (addWildcard holder) (fun t => t.wildcard.map Prod.fst)
      fun t d => { t with wildcard := t.wildcard ++ [(d, holder)] } where
  ok := by
    intro t d hd
    unfold addWildcard
    rw [if_neg]
    simpa [List.any_eq_true] using hd
  new := by
    intro t d t' h
    unfold addWildcard at h
    split at h
    · cases h
    · rename_i hd
      simpa [List.any_eq_true] using hd
  keys_put := by simp

section Fold

variable {holder : ContextHolder} {domains : List Text} {t t' : HostTable ContextHolder}

theorem foldlM_addExact_iff (ht : (t.exact.map Prod.fst).Nodup) :
    domains.foldlM (addExact holder) t = .ok t' ↔ (t.exact.map Prod.fst ++ domains).Nodup ∧
      t' = { t with exact := t.exact ++ domains.map fun d => (d, holder) } := by
  have hfold : domains.foldl (fun t d => { t with exact := t.exact ++ [(d, holder)] }) t =
      { t with exact := t.exact ++ domains.map fun d => (d, holder) } := by
    clear ht
    induction domains generalizing t with
    | nil => simp
    | cons d domains ih => simp [ih]
  rw [(inserts_addExact holder).foldlM_ok_iff ht, hfold]

theorem foldlM_addWildcard_iff (ht : (t.wildcard.map Prod.fst).Nodup) :
    domains.foldlM (addWildcard holder) t = .ok t' ↔ (t.wildcard.map Prod.fst ++ domains).Nodup ∧
      t' = { t with wildcard := t.wildcard ++ domains.map fun d => (d, holder) } := by
  have hfold : domains.foldl (fun t d => { t with wildcard := t.wildcard ++ [(d, holder)] }) t =
      { t with wildcard := t.wildcard ++ domains.map fun d => (d, holder) } := by
    clear ht
    induction domains generalizing t with
    | nil => simp
    | cons d domains ih => simp [ih]
  rw [(inserts_addWildcard holder).foldlM_ok_iff ht, hfold]

end Fold

theorem keys_append (entries : List (Text × ContextHolder)) (domains : List Text)
    (holder : ContextHolder) :
    (entries ++ domains.map fun d => (d, holder)).map Prod.fst = entries.map Prod.fst ++ domains := by
  simp [Function.comp_def]

/-- The keys of a table are distinct. -/
def Distinct (t : HostTable ContextHolder) : Prop :=
  (t.exact.map Prod.fst).Nodup ∧ (t.wildcard.map Prod.fst).Nodup

/-- The default context after one more certificate. -/
def nextDefault (openssl : TlsCertificateConfig → ContextHolder.Patterns → Except Error Unit)
    (noDefault : Bool) (d : Option ContextHolder) (c : TlsCertificateConfig) :
    Option ContextHolder :=
  if c.isDefault || (d.isNone && noDefault) then (ContextHolder.make openssl c).toOption else d

theorem addCertificate_ok_iff {noDefault : Bool} {m m' : ContextManager}
    {config : TlsCertificateConfig} (hm : Distinct m.table) :
    addCertificate openssl noDefault m config = .ok m' ↔
      ∃ holder, ContextHolder.make openssl config = .ok holder ∧
        (m.table.exact.map Prod.fst ++ holder.exactDomains).Nodup ∧
        (m.table.wildcard.map Prod.fst ++ holder.wildcardDomains).Nodup ∧
        m' = { m with
          contexts := m.contexts ++ [holder]
          table := ⟨m.table.exact ++ holder.exactDomains.map fun d => (d, holder),
            m.table.wildcard ++ holder.wildcardDomains.map fun d => (d, holder)⟩
          defaultContext := nextDefault openssl noDefault m.defaultContext config } := by
  unfold addCertificate nextDefault
  simp only [Result.bind_ok_iff, foldlM_addExact_iff hm.1]
  constructor
  · rintro ⟨holder, hmade, _, ⟨he, rfl⟩, _, hwildcard, h⟩
    obtain ⟨hw, rfl⟩ := (foldlM_addWildcard_iff (by exact hm.2)).mp hwildcard
    cases h
    exact ⟨holder, hmade, he, hw, by rw [hmade]; rfl⟩
  · rintro ⟨holder, hmade, he, hw, rfl⟩
    refine ⟨holder, hmade, _, ⟨he, rfl⟩, _, (foldlM_addWildcard_iff (by exact hm.2)).mpr ⟨hw, rfl⟩, ?_⟩
    rw [hmade]
    rfl

theorem foldlM_addCertificate_iff {noDefault : Bool} {certificates : List TlsCertificateConfig}
    {m m' : ContextManager} (hm : Distinct m.table) :
    certificates.foldlM (addCertificate openssl noDefault) m = .ok m' ↔
      (∀ c ∈ certificates, ∃ holder, ContextHolder.make openssl c = .ok holder) ∧
      (m.table.exact.map Prod.fst ++
        (holders openssl certificates).flatMap (·.exactDomains)).Nodup ∧
      (m.table.wildcard.map Prod.fst ++
        (holders openssl certificates).flatMap (·.wildcardDomains)).Nodup ∧
      m' = { m with
        contexts := m.contexts ++ holders openssl certificates
        table := ⟨m.table.exact ++ (tableOf (holders openssl certificates)).exact,
          m.table.wildcard ++ (tableOf (holders openssl certificates)).wildcard⟩
        defaultContext := certificates.foldl (nextDefault openssl noDefault) m.defaultContext } := by
  induction certificates generalizing m m' with
  | nil =>
    simp only [List.foldlM_nil, holders, tableOf, List.filterMap_nil, List.flatMap_nil,
      List.append_nil, List.foldl_nil, List.not_mem_nil, false_implies, implies_true, true_and, hm.1,
      hm.2, pure, Except.pure, Except.ok.injEq]
    exact eq_comm
  | cons c certificates ih =>
    rw [List.foldlM_cons, Result.bind_ok_iff]
    simp only [addCertificate_ok_iff hm, List.mem_cons, forall_eq_or_imp, List.foldl_cons]
    have hcons : ∀ {holder}, ContextHolder.make openssl c = .ok holder →
        holders openssl (c :: certificates) = holder :: holders openssl certificates := by
      intro holder hmade
      simp [holders, hmade, Except.toOption]
    constructor
    · rintro ⟨m₁, ⟨holder, hmade, he, hw, rfl⟩, hrest⟩
      rw [ih ⟨by rwa [keys_append], by rwa [keys_append]⟩] at hrest
      obtain ⟨hall, he', hw', rfl⟩ := hrest
      rw [keys_append, List.append_assoc] at he' hw'
      rw [hcons hmade]
      exact ⟨⟨⟨holder, hmade⟩, hall⟩, he', hw', by simp [tableOf]⟩
    · rintro ⟨⟨⟨holder, hmade⟩, hall⟩, he, hw, rfl⟩
      rw [hcons hmade] at he hw ⊢
      rw [List.flatMap_cons, ← List.append_assoc] at he hw
      have he₁ := (List.nodup_append.mp he).1
      have hw₁ := (List.nodup_append.mp hw).1
      refine ⟨_, ⟨holder, hmade, he₁, hw₁, rfl⟩, ?_⟩
      rw [ih ⟨by rwa [keys_append], by rwa [keys_append]⟩, keys_append, keys_append]
      exact ⟨hall, he, hw, by simp [tableOf]⟩

theorem firstDuplicate_eq_none {seen names : List String} :
    firstDuplicate seen names = none ↔ names.Nodup ∧ ∀ n ∈ names, n ∉ seen := by
  induction names generalizing seen with
  | nil => simp [firstDuplicate]
  | cons n names ih =>
    simp only [firstDuplicate, List.nodup_cons, List.mem_cons, forall_eq_or_imp]
    split
    · rename_i hn
      simp [hn]
    · rename_i hn
      rw [ih]
      constructor
      · rintro ⟨hnodup, hall⟩
        refine ⟨⟨fun hm => hall n hm (by simp), hnodup⟩, hn, fun k hk hs => hall k hk (by simp [hs])⟩
      · rintro ⟨⟨hnew, hnodup⟩, -, hall⟩
        refine ⟨hnodup, fun k hk hs => ?_⟩
        rcases List.mem_cons.mp hs with rfl | hs
        · exact hnew hk
        · exact hall k hk hs

/-- With one mark at most, the mark decides; with none, the first certificate. -/
theorem foldl_nextDefault {certificates : List TlsCertificateConfig}
    (hone : certificates.countP (·.isDefault) ≤ 1)
    (hmade : ∀ c ∈ certificates, ∃ holder, ContextHolder.make openssl c = .ok holder) :
    certificates.foldl (nextDefault openssl (certificates.all fun c => !c.isDefault)) none =
      (defaultCertificate certificates).bind fun c => (ContextHolder.make openssl c).toOption := by
  unfold defaultCertificate
  cases hall : certificates.all fun c => !c.isDefault with
  | true =>
    cases certificates with
    | nil => rfl
    | cons c certificates =>
      obtain ⟨holder, hholder⟩ := hmade c (by simp)
      -- once there is a default, unmarked certificates leave it alone
      have hkeep : ∀ l : List TlsCertificateConfig, (∀ c ∈ l, c.isDefault = false) →
          l.foldl (nextDefault openssl true) (some holder) = some holder := by
        intro l hl
        induction l with
        | nil => rfl
        | cons d l ih =>
          rw [List.foldl_cons, nextDefault, hl d (by simp)]
          exact ih fun e he => hl e (by simp [he])
      simp only [List.all_cons, Bool.and_eq_true, Bool.not_eq_true', List.all_eq_true] at hall
      have hfirst : nextDefault openssl true none c = some holder := by
        simp [nextDefault, hholder, Except.toOption]
      rw [List.foldl_cons, hfirst, hkeep certificates hall.2]
      simp [hholder, Except.toOption]
  | false =>
    have hfold : ∀ (l : List TlsCertificateConfig) (d : Option ContextHolder),
        l.countP (·.isDefault) ≤ 1 → l.foldl (nextDefault openssl false) d =
          match l.find? (·.isDefault) with
          | some c => (ContextHolder.make openssl c).toOption
          | none => d := by
      intro l
      induction l with
      | nil => exact fun d _ => rfl
      | cons c l ih =>
        intro d hcount
        rw [List.countP_cons] at hcount
        rw [List.foldl_cons, ih _ (by omega)]
        cases hc : c.isDefault with
        | false => simp [nextDefault, hc]
        | true =>
          have hnone : l.find? (·.isDefault) = none := by
            rw [hc, if_pos rfl] at hcount
            have hzero : l.countP (·.isDefault) = 0 := by omega
            simpa using List.countP_eq_zero.mp hzero
          simp [nextDefault, hc, hnone]
    rw [hfold certificates none hone]
    cases certificates.find? (·.isDefault) <;> rfl

theorem make_ok_iff {certificates : List TlsCertificateConfig} {reject : Bool} {m : ContextManager} :
    make openssl certificates reject = .ok m ↔ Accepted openssl certificates ∧ m =
      { contexts := holders openssl certificates
        table := (tableOf (holders openssl certificates)).sorted
        defaultContext := (defaultCertificate certificates).bind fun c =>
          (ContextHolder.make openssl c).toOption
        rejectUnknownSni := reject } := by
  have hempty : Distinct (HostTable.empty : HostTable ContextHolder) := ⟨List.nodup_nil, List.nodup_nil⟩
  constructor
  · intro h
    unfold make at h
    obtain ⟨hne, h⟩ := Result.guard_ok h
    dsimp only at h
    split at h
    · cases h
    · rename_i hnames
      obtain ⟨hone, h⟩ := Result.guard_ok h
      obtain ⟨m₀, hfold, h⟩ := Result.bind_ok h
      cases h
      obtain ⟨hmade, he, hw, rfl⟩ := (foldlM_addCertificate_iff hempty).mp hfold
      have hone : certificates.countP (·.isDefault) ≤ 1 := by omega
      refine ⟨⟨hne, (firstDuplicate_eq_none.mp hnames).1, hone, hmade, he, hw⟩, ?_⟩
      simp [HostTable.empty, foldl_nextDefault hone hmade]
  · rintro ⟨h, rfl⟩
    have hnames : firstDuplicate [] (certificates.map (·.name)) = none :=
      firstDuplicate_eq_none.mpr ⟨h.names, by simp⟩
    have hfold : certificates.foldlM (addCertificate openssl (certificates.all fun c => !c.isDefault))
        ⟨[], .empty, none, reject⟩ = .ok _ :=
      (foldlM_addCertificate_iff hempty).mpr ⟨h.made, h.exact, h.wildcard, rfl⟩
    unfold make
    rw [if_neg h.nonempty, hnames, if_neg (by have := h.oneDefault; omega), hfold,
      foldl_nextDefault h.oneDefault h.made]
    simp [HostTable.empty, pure, Except.pure, bind, Except.bind]

/-! ## The same certificates in another order -/

section Perm

variable {certificates certificates' : List TlsCertificateConfig} {reject : Bool}
  {m m' : ContextManager}

theorem distinct_tableOf (h : Accepted openssl certificates) :
    Distinct (tableOf (holders openssl certificates)) := by
  have hkeys : ∀ (domains : ContextHolder → List Text) (l : List ContextHolder),
      (l.flatMap fun c => (domains c).map fun d => (d, c)).map Prod.fst = l.flatMap domains := by
    intro domains l
    simp [List.map_flatMap, Function.comp_def]
  exact ⟨by rw [tableOf, hkeys]; exact h.exact, by rw [tableOf, hkeys]; exact h.wildcard⟩

/-- Every lookup by name gives the same context. -/
theorem find_eq_of_perm (hp : certificates.Perm certificates')
    (hm : make openssl certificates reject = .ok m)
    (hm' : make openssl certificates' reject = .ok m') (host : Text) : m.find host = m'.find host := by
  obtain ⟨h, rfl⟩ := make_ok_iff.mp hm
  obtain ⟨-, rfl⟩ := make_ok_iff.mp hm'
  obtain ⟨he, hw⟩ := distinct_tableOf h
  have hholders : (holders openssl certificates).Perm (holders openssl certificates') := hp.filterMap _
  have hexact : (tableOf (holders openssl certificates)).exact.Perm
      (tableOf (holders openssl certificates')).exact := hholders.flatMap_right _
  have hwildcard : (tableOf (holders openssl certificates)).wildcard.Perm
      (tableOf (holders openssl certificates')).wildcard := hholders.flatMap_right _
  refine HostTable.find_eq_of_perm (t := (tableOf _).sorted) (u := (tableOf _).sorted) hexact ?_ he ?_
    host
  · exact (HostTable.sorted_wildcard_perm _).trans
      (hwildcard.trans (HostTable.sorted_wildcard_perm _).symm)
  · exact ((HostTable.sorted_wildcard_perm _).map _).nodup_iff.mpr hw

theorem canServeDomain_eq_of_perm (hp : certificates.Perm certificates')
    (hm : make openssl certificates reject = .ok m)
    (hm' : make openssl certificates' reject = .ok m') (pattern : Text) :
    m.canServeDomain pattern = m'.canServeDomain pattern := by
  unfold canServeDomain
  simp only [find_eq_of_perm hp hm hm']
  obtain ⟨-, rfl⟩ := make_ok_iff.mp hm
  obtain ⟨-, rfl⟩ := make_ok_iff.mp hm'
  have hholders : (holders openssl certificates).Perm (holders openssl certificates') := hp.filterMap _
  simp only [hholders.any_eq]

/-- The constructor accepts the certificates in any order. -/
theorem make_perm (hp : certificates.Perm certificates')
    (hm : make openssl certificates reject = .ok m) :
    ∃ m', make openssl certificates' reject = .ok m' :=
  ⟨_, make_ok_iff.mpr ⟨(make_ok_iff.mp hm).1.perm hp, rfl⟩⟩

theorem toOption_make_config {c : TlsCertificateConfig} {holder : ContextHolder}
    (h : ContextHolder.make openssl c = .ok holder) :
    ((ContextHolder.make openssl c).toOption.map (·.config)) = some c := by
  rw [h]
  exact congrArg some (madeFrom_make h).config_eq

theorem mem_of_defaultCertificate {c : TlsCertificateConfig}
    (h : defaultCertificate certificates = some c) : c ∈ certificates := by
  unfold defaultCertificate at h
  split at h
  · exact List.mem_of_mem_head? h
  · exact List.mem_of_find?_eq_some h

/-- The default context is made from the default certificate. -/
theorem defaultContext_config (hm : make openssl certificates reject = .ok m) :
    m.defaultContext.map (·.config) = defaultCertificate certificates := by
  obtain ⟨h, rfl⟩ := make_ok_iff.mp hm
  cases hd : defaultCertificate certificates with
  | none => rfl
  | some c =>
    obtain ⟨holder, hholder⟩ := h.made c (mem_of_defaultCertificate hd)
    exact toOption_make_config hholder

/-- All clients get the same answer exactly when the default certificate is the same. -/
theorem sameAnswers_iff (hp : certificates.Perm certificates')
    (hm : make openssl certificates reject = .ok m)
    (hm' : make openssl certificates' reject = .ok m') :
    (∀ serverName, m.serverNameCallback serverName = m'.serverNameCallback serverName) ↔
      defaultCertificate certificates = defaultCertificate certificates' := by
  constructor
  · intro h
    have hnone := h none
    simp only [serverNameCallback, Option.some.injEq, ConnectionState.mk.injEq, and_true] at hnone
    rw [← defaultContext_config hm, ← defaultContext_config hm', hnone]
  · intro hdefault
    have hcontext : m.defaultContext = m'.defaultContext := by
      rw [(make_ok_iff.mp hm).2, (make_ok_iff.mp hm').2, hdefault]
    have hreject : m.rejectUnknownSni = m'.rejectUnknownSni := by
      rw [(make_ok_iff.mp hm).2, (make_ok_iff.mp hm').2]
    have hfind : m.find = m'.find := funext (find_eq_of_perm hp hm hm')
    intro serverName
    cases serverName with
    | none => simp only [serverNameCallback, hcontext]
    | some name => simp only [serverNameCallback, hcontext, hreject, hfind]

end Perm

end ContextManager
end Tls
end WebServer
