import WebServer.Limiter.Slots

/-!
# WebServer.Limiter.Lifetime

How long a site entry lives, and what a permit may do to an entry it was not issued from.

`release` finds the entry by its site id alone, so a permit from before a `clear` meets the entry
made after it, and so does the second release of a slot that was returned already; and
`async_acquire` takes back the `retired` mark that `retain_sites` left.

* `clear_isolates`: while every such late release finds no entry or an idle one, it changes
  nothing and the permits issued since the `clear` stay within the limit.
* `clear_leaks`: one late release that does not breaks the limit.
* `retired_reclaimed`: once nothing of a retired site is in use its entry is gone, if and only if
  no request asked for the site after the last `retain_sites` or `clear`.
* `retired_kept`: a run in which one did.
-/

namespace WebServer
namespace Limiter

open Run

theorem reclaim_of_not_retired {site : SiteState} (h : site.retired = false) :
    site.reclaim = some site := by simp [SiteState.reclaim, h]

/-- A retired entry that was not reclaimed is in use. -/
theorem reclaim_inUse {site site' : SiteState} (h : site.reclaim = some site')
    (hr : site'.retired = true) (hq : site'.queue = []) : site'.active ≠ 0 := by
  unfold SiteState.reclaim at h
  split at h
  · cases h
  · rename_i hn
    cases h
    exact fun ha => hn ⟨hr, ha, hq⟩

theorem lookup_retain {s s' : State} {ids : List Int} (h : s'.sites = (retainSites s ids).sites)
    (id : Int) : s'.sites.lookup id = (s.sites.lookup id).bind fun site =>
      if id ∈ ids then some site else ({ site with retired := true }).reclaim := by
  rw [h]; exact Table.lookup_mapFilter _ _ _

/-! ## Generations -/

/-- No retired entry is idle. -/
def NoneIdle (s : State) : Prop :=
  ∀ id site, s.sites.lookup id = some site → site.retired = true → site.queue = [] →
    site.active ≠ 0

theorem noneIdle_set {s s' : State} {id : Int} {o : Option SiteState} (h : NoneIdle s)
    (hs : ∀ id', s'.sites.lookup id' = if id' = id then o else s.sites.lookup id')
    (ho : ∀ site, o = some site → site.retired = true → site.queue = [] → site.active ≠ 0) :
    NoneIdle s' := by
  intro id' site hl
  rw [hs] at hl
  split at hl
  · exact ho site hl
  · exact h id' site hl

theorem noneIdle_step {s s' : State} {e : Event} (hi : Inv s) (hb : Balanced s) (h : NoneIdle s)
    (hc : StaleIdle s e) (hs : step s e = some s') : NoneIdle s' := by
  cases effect_step hi hs with
  | idle hsites => intro id site; rw [hsites]; exact h id site
  | raised id site g hsites _ hret =>
    refine noneIdle_set h hsites fun site' he hr => ?_
    cases he; rw [hret] at hr; cases hr
  | ignored id slot _ hsites => intro id site; rw [hsites]; exact h id site
  | returned id slot site _ _ hsites =>
    exact noneIdle_set h (lookup_of_set hsites) fun _ he => reclaim_inUse he
  | passed id slot site w queue hl hle hq hsites _ hheld he =>
    refine noneIdle_set h (lookup_of_set hsites) ?_
    intro site' he' _ _
    cases he'
    -- the slot that is passed on is counted in `active`
    have hcur : slot = some s.epoch := by
      by_contra hep
      have hidle := (hc id slot he hep).2
      rw [entry_of_lookup hl, hq] at hidle
      cases hidle
    obtain ⟨s₁, ho, -, -, -, -, hu⟩ := released_step hi he
    have hu := hu fun i ep => i = id ∧ ep = s.epoch
    rw [unit_current, if_pos ⟨rfl, hcur⟩] at hu
    have ha := hb id
    rw [entry_of_lookup hl, current] at ha
    simp only; omega
  | removed id site site' _ hsites =>
    exact noneIdle_set h (lookup_of_set hsites) fun _ he => reclaim_inUse he
  | retained ids hsites =>
    intro id site hl
    rw [lookup_retain hsites, Option.bind_eq_some_iff] at hl
    obtain ⟨old, hold, hl⟩ := hl
    split at hl
    · cases hl; exact h id _ hold
    · exact reclaim_inUse hl
  | cleared hsites => intro id site hl; rw [hsites] at hl; cases hl

/-- The limit of `id` is `m`, and its entry is within it. -/
def Within (id : Int) (m : Nat) (s : State) : Prop :=
  ∀ site, s.sites.lookup id = some site → site.active ≤ m ∧ site.maximumActive = m

theorem within_step {s s' : State} {e : Event} {id : Int} {m : Nat} (hi : Inv s)
    (h : Within id m s) (he : ∀ m', e.limit? = some (id, m') → m' = m)
    (hs : step s e = some s') : Within id m s' := by
  intro site' hl'
  cases effect_step hi hs with
  | idle hsites => exact h site' (hsites ▸ hl')
  | raised id' site g hsites _ _ hactive hle _ hlim =>
    rw [hsites] at hl'
    split at hl'
    · rename_i hid
      cases hl'
      subst hid
      have hm := he _ hlim
      rcases hle with hg | hle
      · cases hl : s.sites.lookup id with
        | none => simp [State.entry, hl] at hactive; omega
        | some old => rw [entry_of_lookup hl] at hactive; have := h old hl; omega
      · omega
    · exact h site' hl'
  | ignored id' slot _ hsites => exact h site' (hsites ▸ hl')
  | returned id' slot site hl _ hsites =>
    rw [lookup_of_set hsites] at hl'
    split at hl'
    · rename_i hid
      subst hid
      have := h site hl
      rw [eq_of_reclaim hl']; simp only; omega
    · exact h site' hl'
  | passed id' slot site w queue hl _ _ hsites =>
    rw [lookup_of_set hsites] at hl'
    split at hl'
    · rename_i hid; subst hid; cases hl'; exact h site hl
    · exact h site' hl'
  | removed id' site new hl hsites _ hactive _ hmax =>
    rw [lookup_of_set hsites] at hl'
    split at hl'
    · rename_i hid
      subst hid
      rw [eq_of_reclaim hl', hactive, hmax]; exact h site hl
    · exact h site' hl'
  | retained ids hsites =>
    rw [lookup_retain hsites, Option.bind_eq_some_iff] at hl'
    obtain ⟨old, hold, hl'⟩ := hl'
    split at hl'
    · cases hl'; exact h _ hold
    · rw [eq_of_reclaim hl']; exact h old hold
  | cleared hsites => rw [hsites] at hl'; cases hl'

/-- What holds of the entries made since a `clear`. -/
structure Isolated (id : Int) (m : Nat) (s : State) : Prop where
  inv : Inv s
  past : PastOnly s
  balanced : Balanced s
  noneIdle : NoneIdle s
  within : Within id m s

theorem isolated_clear {s : State} (hi : Inv s) (hp : PastOnly s) (id : Int) (m : Nat) :
    Isolated id m (clear s) where
  inv := hi.clear
  past := pastOnly_step (e := .clear) hi hp rfl
  balanced := balanced_clear hp
  noneIdle := fun id site hl => by cases hl
  within := fun site hl => by cases hl

theorem isolated_step {s s' : State} {e : Event} {id : Int} {m : Nat} (h : Isolated id m s)
    (hc : StaleIdle s e) (he : ∀ m', e.limit? = some (id, m') → m' = m)
    (hs : step s e = some s') : Isolated id m s' where
  inv := inv_step h.inv hs
  past := pastOnly_step h.inv h.past hs
  balanced := balanced_step h.inv h.past h.balanced hc hs
  noneIdle := noneIdle_step h.inv h.balanced h.noneIdle hc hs
  within := within_step h.inv h.within he hs

theorem pastOnly_run {es : List Event} {s : State} (h : run step State.init es = some s) :
    PastOnly s :=
  (run_inv (P := fun s => Inv s ∧ PastOnly s)
    (fun _ _ _ hi hs => ⟨inv_step hi.1 hs, pastOnly_step hi.1 hi.2 hs⟩)
    ⟨inv_init, pastOnly_init⟩ h).2

/-- The live permits of a site that were issued since the last `clear`. -/
def liveSinceClear (id : Int) (s : State) : Nat :=
  s.permits.countP fun p => p.siteId = id ∧ p.epoch = s.epoch

theorem Isolated.live_le {id : Int} {m : Nat} {s : State} (h : Isolated id m s) :
    liveSinceClear id s ≤ m := by
  have hle : liveSinceClear id s ≤ (s.entry id).active := by
    rw [h.balanced id]; exact Nat.le_add_right _ _
  refine Nat.le_trans hle ?_
  cases hl : s.sites.lookup id with
  | none => simp [State.entry, hl]
  | some site => rw [entry_of_lookup hl]; exact (h.within site hl).1

/-- A release leaves every entry as it is, exactly when its site has no entry or an idle one. -/
theorem late_release {s s' : State} {e : Event} {id : Int} {slot : Option Nat} (hi : Inv s)
    (hn : NoneIdle s) (he : s.released? e = some (id, slot)) (hs : step s e = some s') :
    (∀ id', s'.sites.lookup id' = s.sites.lookup id') ↔
      (s.entry id).active = 0 ∧ (s.entry id).queue = [] := by
  obtain ⟨s₁, ho, hst, hi₁, hsites, -, -⟩ := released_step hi he
  rw [hst] at hs
  cases hs
  rcases release_eq hi₁ id ho with ⟨hl, hr⟩ | ⟨site, hl, hc, hr⟩ | ⟨site, w, queue, hl, hle, hq, hr⟩
  · rw [hr, hsites]
    rw [hsites] at hl
    simp [State.entry, hl]
  · rw [hsites] at hl
    have hlook : ∀ id', (release s₁ id ho).sites.lookup id' = if id' = id then
        ({ site with active := site.active - 1 }).reclaim else s.sites.lookup id' := by
      intro id'; rw [hr, ← hsites]; exact Table.lookup_set _ _ _ _
    rw [entry_of_lookup hl]
    constructor
    · intro h
      have hid := h id
      rw [hlook, if_pos rfl, hl] at hid
      have ha := congrArg SiteState.active (eq_of_reclaim hid)
      simp only at ha
      exact ⟨by omega, hc.resolve_left (by omega)⟩
    · rintro ⟨ha, hq⟩ id'
      have hret : site.retired = false := by
        by_contra hret
        exact hn id site hl (by simpa using hret) hq ha
      rw [hlook]
      split
      · rename_i hid
        have hsame : ({ site with active := site.active - 1 } : SiteState) = site := by
          rw [ha]; cases site; simp_all
        rw [hid, hsame, reclaim_of_not_retired hret, hl]
      · rfl
  · rw [hsites] at hl
    have hlook : ∀ id', (release s₁ id ho).sites.lookup id' = if id' = id then
        some { site with queue := queue } else s.sites.lookup id' := by
      intro id'; rw [hr, ← hsites]; cases ho <;> exact Table.lookup_set _ _ _ _
    rw [entry_of_lookup hl, hq]
    constructor
    · intro h
      have hid := h id
      rw [hlook, if_pos rfl, hl, Option.some.injEq] at hid
      have hqq := congrArg SiteState.queue hid
      simp [hq] at hqq
    · rintro ⟨-, hnil⟩; cases hnil

/-- After a `clear`, while every slot from before it, or returned already, is released for a site
without an entry or with an idle one: the permits of `id` issued since stay within its constant limit
`m`, and a further late release leaves the entries as they are exactly when it meets the same
condition. -/
theorem clear_isolates {es₁ es₂ : List Event} {s₀ s : State} {id : Int} {m : Nat}
    (h₀ : run step State.init (es₁ ++ [.clear]) = some s₀)
    (hlimit : ∀ e ∈ es₂, ∀ m', e.limit? = some (id, m') → m' = m)
    (hstale : Along step StaleIdle s₀ es₂) (h : run step s₀ es₂ = some s) :
    liveSinceClear id s ≤ m ∧
    ∀ e id' slot s', s.released? e = some (id', slot) → slot ≠ some s.epoch → step s e = some s' →
      ((∀ x, s'.sites.lookup x = s.sites.lookup x) ↔ StaleIdle s e) := by
  obtain ⟨s₁, h₁, hc⟩ := run_append.mp h₀
  rw [run_single] at hc
  cases hc
  have hiso : Isolated id m s :=
    run_inv_along (G := fun s e => StaleIdle s e ∧ ∀ m', e.limit? = some (id, m') → m' = m)
      (fun _ _ _ hi hg hs => isolated_step hi hg.1 hg.2 hs)
      (isolated_clear (inv_run h₁) (pastOnly_run h₁) id m)
      (hstale.and (along_of_forall hlimit)) h
  refine ⟨hiso.live_le, fun e id' slot s' he hne hs => ?_⟩
  rw [late_release hiso.inv hiso.noneIdle he hs]
  constructor
  · intro hidle x ep hx _
    rw [he, Option.some.injEq, Prod.mk.injEq] at hx
    rw [← hx.1]; exact hidle
  · intro hst; exact hst id' slot he hne

/-- A permit from before the `clear` is released while its site has no entry; then the site is
used again, with one request granted and one queued. -/
def idleReleaseRun : List Event :=
  [.destroyPermit 0 .posted, .asyncAcquire 7 "shop" "10.0.0.1:80" 1 5 30,
    .asyncAcquire 7 "shop" "10.0.0.1:80" 1 5 30]

theorem clear_isolates_idleReleaseRun :
    ∃ s₀ s, run step State.init ([.asyncAcquire 7 "shop" "10.0.0.1:80" 1 5 30] ++ [.clear]) =
        some s₀ ∧ run step s₀ idleReleaseRun = some s ∧ liveSinceClear 7 s ≤ 1 := by
  have h₀ : run step State.init ([.asyncAcquire 7 "shop" "10.0.0.1:80" 1 5 30] ++ [.clear]) =
    some (clear (asyncAcquire State.init 7 "shop" "10.0.0.1:80" 1 5 30)) := rfl
  obtain ⟨s, hs⟩ := Option.isSome_iff_exists.mp (show (run step
    (clear (asyncAcquire State.init 7 "shop" "10.0.0.1:80" 1 5 30)) idleReleaseRun).isSome = true
    by decide)
  refine ⟨_, s, h₀, hs, (clear_isolates h₀ (by simp [idleReleaseRun, Event.limit?]) ?_ hs).1⟩
  simp only [idleReleaseRun, Along]
  refine ⟨fun id epoch _ _ => ⟨rfl, rfl⟩, fun s₁ _ => ⟨?_, fun s₂ _ => ⟨?_, fun _ _ => trivial⟩⟩⟩
  · intro id epoch he; cases he
  · intro id epoch he; cases he

/-- A late release hands the slot of an entry it was not issued from to a waiter of that entry:
two permits are live where the limit is 1. -/
theorem clear_leaks :
    ¬ ∀ (es₁ es₂ : List Event) (s₀ s : State) (id : Int) (m : Nat),
      run step State.init (es₁ ++ [.clear]) = some s₀ →
      (∀ e ∈ es₂, ∀ m', e.limit? = some (id, m') → m' = m) →
      run step s₀ es₂ = some s → liveSinceClear id s ≤ m := by
  intro h
  have hrun : (run step (clear (asyncAcquire State.init 7 "shop" "10.0.0.1:80" 1 5 30))
      [.asyncAcquire 7 "shop" "10.0.0.1:80" 1 5 30, .asyncAcquire 7 "shop" "10.0.0.1:80" 1 5 30,
        .destroyPermit 0 .posted]).map (liveSinceClear 7) = some 2 := by decide
  obtain ⟨s, hs, hlive⟩ := Option.map_eq_some_iff.mp hrun
  have := h [.asyncAcquire 7 "shop" "10.0.0.1:80" 1 5 30] _ _ s 7 1 rfl
    (by simp [Event.limit?]) hs
  omega

/-! ## Reclamation -/

/-- The slots of a site, of any epoch. -/
def slotsOf (id : Int) (s : State) : Nat := held (fun id' _ => id' = id) s

/-- `active` never exceeds the slots taken, and a retired entry with an empty queue has one. -/
structure InUse (s : State) : Prop where
  active : ∀ id, (s.entry id).active ≤ slotsOf id s
  retired : ∀ id site, s.sites.lookup id = some site → site.retired = true → site.queue = [] →
    slotsOf id s ≠ 0

theorem inUse_init : InUse State.init := ⟨fun _ => Nat.le_refl _, fun id site hl => by cases hl⟩

theorem unit_slotsOf (id : Int) (epoch : Nat) : unit (fun i _ => i = id) id (some epoch) = 1 := by
  simp [unit]

theorem unit_slotsOf_ne {id id' : Int} (h : id' ≠ id) (slot : Option Nat) :
    unit (fun i _ => i = id) id' slot = 0 := by cases slot <;> simp [unit, h]

theorem unit_le_one (P : Int → Nat → Bool) (id : Int) (slot : Option Nat) : unit P id slot ≤ 1 := by
  unfold unit; split <;> omega

theorem active_le_slots_step {s s' : State} {e : Event} (hi : Inv s) (h : InUse s)
    (hs : step s e = some s') (id' : Int) : (s'.entry id').active ≤ slotsOf id' s' := by
  have ha := h.active id'
  simp only [slotsOf] at ha ⊢
  cases effect_step hi hs with
  | idle hsites _ hheld => rw [State.entry, hsites, hheld]; exact ha
  | raised id site g hsites _ _ hactive _ hheld =>
    rw [entry_raised hsites, hheld]
    split
    · rename_i hid; subst hid; rw [unit_slotsOf]; omega
    · rename_i hid; rw [unit_slotsOf_ne (Ne.symm hid)]; omega
  | ignored id slot hl hsites _ hheld =>
    have hu := hheld fun i _ => i = id'
    by_cases hid : id = id'
    · rw [State.entry, hsites, ← hid, hl]; exact Nat.zero_le _
    · rw [State.entry, hsites]
      show (s.entry id').active ≤ _
      rw [unit_slotsOf_ne hid] at hu; omega
  | returned id slot site hl _ hsites _ hheld =>
    have hu := hheld fun i _ => i = id'
    have hone := unit_le_one (fun i _ => i = id') id slot
    rw [entry_set hsites]
    split
    · rename_i hid
      subst hid
      rw [entry_of_lookup hl] at ha
      rw [reclaim_active]; simp only; omega
    · rename_i hid; rw [unit_slotsOf_ne (Ne.symm hid)] at hu; omega
  | passed id slot site w queue hl _ _ hsites _ hheld =>
    have hu := hheld fun i _ => i = id'
    have hone := unit_le_one (fun i _ => i = id') id slot
    rw [entry_set hsites]
    split
    · rename_i hid
      subst hid
      rw [entry_of_lookup hl] at ha
      rw [unit_slotsOf] at hu
      simp only [Option.getD_some]; omega
    · rename_i hid
      rw [unit_slotsOf_ne (Ne.symm hid), unit_slotsOf_ne (Ne.symm hid)] at hu; omega
  | removed id site site' hl hsites _ hactive _ _ hheld =>
    rw [entry_set hsites, hheld]
    split
    · rename_i hid; subst hid; rw [reclaim_active, hactive, ← entry_of_lookup hl]; exact ha
    · exact ha
  | retained ids hsites _ hheld => rw [retain_active hsites, hheld]; exact ha
  | cleared hsites => simp [State.entry, hsites]

theorem inUse_step {s s' : State} {e : Event} (hi : Inv s) (h : InUse s)
    (hs : step s e = some s') : InUse s' := by
  have hact := active_le_slots_step hi h hs
  -- an entry that was tested with `reclaim` still has an active slot
  have hkept : ∀ id (site site' : SiteState), s'.sites.lookup id = site.reclaim → s'.sites.lookup id = some site' →
      site'.retired = true → site'.queue = [] → slotsOf id s' ≠ 0 := by
    intro id site site' hr hl hret hq
    rw [hl] at hr
    have := reclaim_inUse hr.symm hret hq
    have hle := hact id
    rw [entry_of_lookup hl] at hle
    omega
  refine ⟨hact, fun id' site' hl' hret' hq' => ?_⟩
  cases effect_step hi hs with
  | idle hsites _ hheld => rw [slotsOf, hheld]; exact h.retired id' site' (hsites ▸ hl') hret' hq'
  | raised id site g hsites _ hret _ _ hheld =>
    have hold := hl'
    rw [hsites] at hold
    split at hold
    · cases hold; rw [hret] at hret'; cases hret'
    · have := h.retired id' site' hold hret' hq'
      simp only [slotsOf] at this ⊢
      rw [hheld]; omega
  | ignored id slot hl hsites _ hheld =>
    have hu := hheld fun i _ => i = id'
    have hold := hl'
    rw [hsites] at hold
    have hne : id ≠ id' := fun hid => by rw [hid, hold] at hl; cases hl
    rw [unit_slotsOf_ne hne] at hu
    have := h.retired id' site' hold hret' hq'
    simp only [slotsOf] at this ⊢
    omega
  | returned id slot site hl _ hsites _ hheld =>
    have hu := hheld fun i _ => i = id'
    have hold := hl'
    rw [lookup_of_set hsites] at hold
    split at hold
    · rename_i hid
      subst hid
      exact hkept id' _ site' (by rw [hl']; exact hold.symm) hl' hret' hq'
    · rename_i hid
      rw [unit_slotsOf_ne (Ne.symm hid)] at hu
      have := h.retired id' site' hold hret' hq'
      simp only [slotsOf] at this ⊢
      omega
  | passed id slot site w queue hl _ _ hsites _ hheld he =>
    have hu := hheld fun i _ => i = id'
    have hold := hl'
    rw [lookup_of_set hsites] at hold
    split at hold
    · rename_i hid
      subst hid
      obtain ⟨s₁, ho, -, -, -, -, hslot⟩ := released_step hi he
      have hslot := hslot fun i _ => i = id'
      rw [unit_slotsOf] at hu
      simp only [slotsOf]
      omega
    · rename_i hid
      rw [unit_slotsOf_ne (Ne.symm hid), unit_slotsOf_ne (Ne.symm hid)] at hu
      have := h.retired id' site' hold hret' hq'
      simp only [slotsOf] at this ⊢
      omega
  | removed id site new hl hsites _ _ _ _ hheld =>
    have hold := hl'
    rw [lookup_of_set hsites] at hold
    split at hold
    · rename_i hid
      subst hid
      exact hkept id' _ site' (by rw [hl']; exact hold.symm) hl' hret' hq'
    · have := h.retired id' site' hold hret' hq'
      simp only [slotsOf] at this ⊢
      rw [hheld]; exact this
  | retained ids hsites _ hheld =>
    have hold := hl'
    rw [lookup_retain hsites, Option.bind_eq_some_iff] at hold
    obtain ⟨old, hl, hold⟩ := hold
    split at hold
    · cases hold
      rw [slotsOf, hheld]; exact h.retired id' _ hl hret' hq'
    · exact hkept id' _ site' (by rw [hl']; exact hold.symm) hl' hret' hq'
  | cleared hsites => rw [hsites] at hl'; cases hl'

theorem inUse_run {es : List Event} {s : State} (h : run step State.init es = some s) : InUse s :=
  (run_inv (P := fun s => Inv s ∧ InUse s)
    (fun _ _ _ hi hs => ⟨inv_step hi.1 hs, inUse_step hi.1 hi.2 hs⟩) ⟨inv_init, inUse_init⟩ h).2

/-- Whether an event names a site: `update_limits` of it, or `retain_sites` with it. -/
def Event.names (id : Int) : Event → Bool
  | .updateLimits id' _ _ => id' = id
  | .retainSites ids => id ∈ ids
  | _ => false

/-- Whether site `id` was asked for since the last `retain_sites` or `clear`; `b` says whether it
was before the event. -/
def asked (id : Int) (b : Bool) : Event → Bool
  | .asyncAcquire id' _ _ _ _ _ => b || id' = id
  | .retainSites _ => false
  | .clear => false
  | _ => b

/-- The site was asked for after the last `retain_sites` or `clear` of the run. -/
def askedSince (id : Int) (es : List Event) : Bool := es.foldl (asked id) false

/-- `b`: the entry exists and lost its `retired` mark. Otherwise an entry, if any, is retired. -/
def Marked (id : Int) (b : Bool) (s : State) : Prop :=
  if b then ∃ site, s.sites.lookup id = some site ∧ site.retired = false
  else ∀ site, s.sites.lookup id = some site → site.retired = true

theorem Marked.congr {id : Int} {b : Bool} {s s' : State} (h : Marked id b s)
    (hl : s'.sites.lookup id = s.sites.lookup id) : Marked id b s' := by
  unfold Marked at h ⊢; rw [hl]; exact h

theorem Marked.reclaim {id : Int} {b : Bool} {s s' : State} {site site' : SiteState}
    (h : Marked id b s) (hl : s.sites.lookup id = some site) (hret : site'.retired = site.retired)
    (hl' : s'.sites.lookup id = site'.reclaim) : Marked id b s' := by
  unfold Marked at h ⊢
  cases b with
  | false =>
    simp only [Bool.false_eq_true, if_false] at h ⊢
    intro x hx
    rw [hl'] at hx
    rw [eq_of_reclaim hx, hret]; exact h site hl
  | true =>
    simp only [if_true] at h ⊢
    obtain ⟨x, hx, hxr⟩ := h
    rw [hl] at hx
    cases hx
    rw [hxr] at hret
    exact ⟨site', by rw [hl', reclaim_of_not_retired hret], hret⟩

/-- An event that is about other sites, or that only returns slots and removes waiters. -/
theorem marked_keep {s s' : State} {e : Event} {id : Int} {b : Bool} (hi : Inv s)
    (h : Marked id b s) (hlim : ∀ m, e.limit? ≠ some (id, m)) (hc : e ≠ .clear)
    (hr : ∀ ids, e ≠ .retainSites ids) (hs : step s e = some s') : Marked id b s' := by
  have hset : ∀ (id' : Int) (site site' : SiteState), s.sites.lookup id' = some site →
      site'.retired = site.retired → s'.sites = s.sites.set id' site'.reclaim →
      Marked id b s' := by
    intro id' site site' hl hret hsites
    by_cases hid : id = id'
    · subst hid
      exact h.reclaim hl hret (by rw [lookup_of_set hsites, if_pos rfl])
    · exact h.congr (by rw [lookup_of_set hsites, if_neg hid])
  cases effect_step hi hs with
  | idle hsites => exact h.congr (by rw [hsites])
  | raised id' site g hsites _ _ _ _ _ hl =>
    have hid : id ≠ id' := fun hid => hlim site.maximumActive (hid ▸ hl)
    exact h.congr (by rw [hsites, if_neg hid])
  | ignored id' slot _ hsites => exact h.congr (by rw [hsites])
  | returned id' slot site hl _ hsites =>
    exact hset id' site { site with active := site.active - 1 } hl rfl hsites
  | passed id' slot site w queue hl _ _ hsites =>
    by_cases hid : id = id'
    · subst hid
      have hl' := lookup_of_set hsites id
      rw [if_pos rfl] at hl'
      unfold Marked at h ⊢
      cases b with
      | false =>
        simp only [Bool.false_eq_true, if_false] at h ⊢
        intro x hx; rw [hl'] at hx; cases hx; exact h site hl
      | true =>
        simp only [if_true] at h ⊢
        obtain ⟨x, hx, hxr⟩ := h
        rw [hl] at hx
        cases hx
        exact ⟨_, hl', hxr⟩
    · exact h.congr (by rw [lookup_of_set hsites, if_neg hid])
  | removed id' site site' hl hsites _ _ hret => exact hset id' site site' hl hret hsites
  | retained ids _ _ _ he => exact absurd he (hr ids)
  | cleared _ _ _ he => exact absurd he hc

theorem marked_retain (s : State) {ids : List Int} {id : Int} (hid : id ∉ ids) :
    Marked id false (retainSites s ids) := by
  simp only [Marked, Bool.false_eq_true, if_false]
  intro site hl
  rw [lookup_retain rfl, Option.bind_eq_some_iff] at hl
  obtain ⟨old, -, hl⟩ := hl
  rw [if_neg hid] at hl
  rw [eq_of_reclaim hl]

theorem marked_acquire (s : State) (id : Int) (siteName backend : String) (m n q : Nat) :
    Marked id true (asyncAcquire s id siteName backend m n q) := by
  rw [asyncAcquire_eq]
  obtain ⟨site, -, hsites, -, hret, -⟩ := accept_effect ((s.arrive id).promoteSite id
    (refresh (s.sites.lookup id) siteName backend m n q)).2 id _ s.nextWaiterId
  exact ⟨site, by rw [hsites, Table.lookup_set_self], hret⟩

theorem marked_step {s s' : State} {e : Event} {id : Int} {b : Bool} (hi : Inv s)
    (h : Marked id b s) (hn : e.names id = false) (hs : step s e = some s') :
    Marked id (asked id b e) s' := by
  cases e with
  | asyncAcquire id' siteName backend m n q =>
    by_cases hid : id' = id
    · subst hid
      cases hs
      simp only [asked, decide_true, Bool.or_true]
      exact marked_acquire s id' siteName backend m n q
    · simp only [asked, hid, decide_false, Bool.or_false]
      exact marked_keep hi h (by simp [Event.limit?, hid]) (by simp) (by simp) hs
  | updateLimits id' m n =>
    have hid : id' ≠ id := by simpa [Event.names] using hn
    exact marked_keep hi h (by simp [Event.limit?, hid]) (by simp) (by simp) hs
  | retainSites ids =>
    cases hs
    exact marked_retain s (by simpa [Event.names] using hn)
  | clear => cases hs; exact fun site hl => by cases hl
  | destroyPermit i ho => exact marked_keep hi h (by simp [Event.limit?]) (by simp) (by simp) hs
  | cancel w => exact marked_keep hi h (by simp [Event.limit?]) (by simp) (by simp) hs
  | timeout w => exact marked_keep hi h (by simp [Event.limit?]) (by simp) (by simp) hs
  | run i ho => exact marked_keep hi h (by simp [Event.limit?]) (by simp) (by simp) hs

theorem marked_run {es : List Event} {s s' : State} {id : Int} {b : Bool} (hi : Inv s)
    (h : Marked id b s) (hn : ∀ e ∈ es, e.names id = false) (hr : run step s es = some s') :
    Marked id (es.foldl (asked id) b) s' := by
  induction es generalizing s b with
  | nil => cases hr; exact h
  | cons e es ih =>
    obtain ⟨s₁, hs, hr⟩ := run_cons hr
    exact ih (inv_step hi hs) (marked_step hi h (hn e (by simp)) hs)
      (fun e' he' => hn e' (by simp [he'])) hr

/-- After `retain_sites` without `id`, and no later event that names it: in a state where no slot
of `id` is taken and no request waits for it, its entry is gone if and only if no request asked
for `id` since the last `retain_sites` or `clear`. -/
theorem retired_reclaimed {es₁ es₂ : List Event} {ids : List Int} {s : State} {id : Int}
    (hid : id ∉ ids) (hlater : ∀ e ∈ es₂, e.names id = false)
    (h : run step State.init (es₁ ++ .retainSites ids :: es₂) = some s)
    (hslots : slotsOf id s = 0) (hqueue : (s.entry id).queue = []) :
    s.sites.lookup id = none ↔ askedSince id es₂ = false := by
  have huse := inUse_run h
  obtain ⟨s₁, h₁, h₂⟩ := run_append.mp h
  obtain ⟨s₂, hs, h₂⟩ := run_cons h₂
  have hi₁ := inv_run h₁
  have hi₂ := inv_step hi₁ hs
  cases hs
  have hmark := marked_run hi₂ (marked_retain s₁ hid) hlater h₂
  have hfold : askedSince id es₂ = es₂.foldl (asked id) false := rfl
  rw [← hfold] at hmark
  cases ha : askedSince id es₂ with
  | true =>
    rw [ha] at hmark
    obtain ⟨site, hl, -⟩ := hmark
    simp [hl]
  | false =>
    rw [ha] at hmark
    cases hl : s.sites.lookup id with
    | none => simp
    | some site =>
      rw [entry_of_lookup hl] at hqueue
      exact absurd hslots (huse.retired id site hl (hmark site hl) hqueue)

/-- A site deleted while one request uses it and one waits; both leave. -/
def deletedRun : List Event :=
  [.destroyPermit 0 .posted, .destroyPermit 0 .posted]

theorem retired_reclaimed_deletedRun :
    ∃ s, run step State.init ([.asyncAcquire 7 "shop" "10.0.0.1:80" 1 5 30,
        .asyncAcquire 7 "shop" "10.0.0.1:80" 1 5 30] ++ .retainSites [8] :: deletedRun) = some s ∧
      s.sites.lookup 7 = none := by
  have hrun : (run step State.init ([.asyncAcquire 7 "shop" "10.0.0.1:80" 1 5 30,
      .asyncAcquire 7 "shop" "10.0.0.1:80" 1 5 30] ++ .retainSites [8] :: deletedRun)).map
      (fun s => (slotsOf 7 s, (s.entry 7).queue)) = some (0, []) := by decide
  obtain ⟨s, hs, hq⟩ := Option.map_eq_some_iff.mp hrun
  rw [Prod.mk.injEq] at hq
  exact ⟨s, hs, (retired_reclaimed (by decide) (by decide) hs hq.1 hq.2).mpr (by decide)⟩

/-- A request dispatched under the old snapshot asks for the site after `retain_sites`: its entry
stays for good, though its permit is destroyed. -/
theorem retired_kept :
    ¬ ∀ (es₁ es₂ : List Event) (ids : List Int) (s : State) (id : Int), id ∉ ids →
      (∀ e ∈ es₂, e.names id = false) →
      run step State.init (es₁ ++ .retainSites ids :: es₂) = some s →
      slotsOf id s = 0 → (s.entry id).queue = [] → s.sites.lookup id = none := by
  intro h
  have hrun : (run step State.init ([] ++ .retainSites [] ::
      [.asyncAcquire 7 "shop" "10.0.0.1:80" 1 5 30, .destroyPermit 0 .posted])).map
      (fun s => (slotsOf 7 s, (s.entry 7).queue, (s.sites.lookup 7).isNone)) =
        some (0, [], false) := by decide
  obtain ⟨s, hs, hq⟩ := Option.map_eq_some_iff.mp hrun
  simp only [Prod.mk.injEq] at hq
  have := h [] _ [] s 7 (by simp) (by decide) hs hq.1 hq.2.1
  rw [this] at hq
  cases hq.2.2

end Limiter
end WebServer
