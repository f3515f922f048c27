import WebServer.Config.Atomic
import WebServer.Core.ListenerInv

/-!
# WebServer.Core.ListenerDiff

What holds of the listeners of a started server across any run of reloads.

* `Followed`: the maps have the ports of the published snapshot, and a listener that was taken out is
  among the retired ones until its last session has closed, and is erased once.
* `Moved`: what one step does to the maps.
* `Gated`: a reload that binds a port has a larger revision than the published snapshot. Only then is
  the gate of a new listener closed until its reload is activated (`GateInv`). And no activation
  opens the gate of a listener that was dropped while it is still in `on_accept`.
* `listeners_follow`: all of this, over runs.
-/

namespace WebServer
namespace Core

open Config Act

section Results

variable {chk : Checks} {s s' : Listening}

/-! ## The maps -/

/-- The listener is among the retired ones, or it was erased once and has no session. -/
def RetiredOnce (s : Listening) (l : Listener) : Prop :=
  (s.server.table l.protocol).retired.count l.id = 1 ∧ (s.party l.id).erased = 0 ∨
    (s.server.table l.protocol).retired.count l.id = 0 ∧ (s.party l.id).erased = 1 ∧
      (s.party l.id).sessions = []

/-- What the listener has dispatched or posted erases it, once an accept that is under way has ended
without a session. -/
def Drains (chk : Checks) (s : Listening) (l : Listener) : Prop :=
  ∃ events s', (∀ e ∈ events, e = .retireOnExecutor l.id ∨ e = .drained l.id ∨
      e = .gate l.id .refused ∧ (s.party l.id).accepting = true) ∧
    Run.run (step chk) s events = some s' ∧ (s'.server.table l.protocol).retired.count l.id = 0

structure Followed (chk : Checks) (s : Listening) : Prop where
  ports : ∀ protocol, ActivePorts (s.server.table protocol) (ports s.server.runtime protocol)
  retired : ∀ l ∈ s.server.listeners, l.retired = true → RetiredOnce s l
  drains : ∀ l ∈ s.server.listeners, l.retired = true → (s.party l.id).sessions = [] →
    s.server.controlLocked = false → Drains chk s l

/-- A port that stays keeps its listener, and the listener of a port that goes is retired. -/
structure Moved (s s' : Listening) : Prop where
  kept : ∀ protocol port id, (port, id) ∈ (s.server.table protocol).active →
    port ∈ ports s'.server.runtime protocol → (port, id) ∈ (s'.server.table protocol).active
  removed : ∀ protocol port id, (port, id) ∈ (s.server.table protocol).active →
    port ∉ ports s'.server.runtime protocol →
      ∃ l ∈ s'.server.listeners, l.id = id ∧ l.protocol = protocol ∧ l.retired = true ∧
        id ∈ (s'.server.table protocol).retired

theorem Inv.retiredOnce (h : Inv s) {l : Listener} (hl : l ∈ s.server.listeners)
    (hretired : l.retired = true) : RetiredOnce s l := by
  by_cases hin : l.id ∈ (s.server.table l.protocol).retired
  · refine .inl ⟨count_retired h.layout hin, ?_⟩
    cases h.parties.leaving l.protocol l.id hin <;> assumption
  · have hgone := (h.parties.flagged l hl hretired).resolve_left hin
    exact .inr ⟨List.count_eq_zero.mpr hin, hgone.erased, hgone.sessions⟩

theorem Layout.getElem?_id {server : Server} {rounds : Option (List (Protocol × Nat))}
    (h : Layout server rounds) {l : Listener} (hl : l ∈ server.listeners) :
    server.listeners[l.id]? = some l := by
  obtain ⟨i, hi, rfl⟩ := List.getElem_of_mem hl
  rw [h.ids i _ (List.getElem?_eq_getElem hi)]
  exact List.getElem?_eq_getElem hi

/-- The posted handler erases the listener. -/
theorem Inv.drained_posted (h : Inv s) (chk : Checks) {l : Listener} (hl : l ∈ s.server.listeners)
    (hlocked : s.server.controlLocked = false) (hposted : 0 < (s.party l.id).posted) :
    ∃ s', step chk s (.drained l.id) = some s' ∧
      (s'.server.table l.protocol).retired.count l.id = 0 := by
  refine ⟨drainedStep s l, ?_, ?_⟩
  · simp only [step, hposted, hlocked, and_self, if_true, h.layout.getElem?_id hl, Option.map_some]
  · change ((onDrained l.protocol l.id s.server).table l.protocol).retired.count l.id = 0
    rw [onDrained_table, List.count_eq_zero]
    simp

/-- A listener without sessions that was told to retire drains. -/
theorem Inv.drains_told (h : Inv s) (chk : Checks) {l : Listener} (hl : l ∈ s.server.listeners)
    (hsessions : (s.party l.id).sessions = []) (hlocked : s.server.controlLocked = false)
    (hretiring : (s.party l.id).retiring = 1) (haccepting : (s.party l.id).accepting = false) :
    ∃ s', Run.run (step chk) s [.retireOnExecutor l.id, .drained l.id] = some s' ∧
      (s'.server.table l.protocol).retired.count l.id = 0 := by
  have hfirst : step chk s (.retireOnExecutor l.id) =
      some (s.setParty l.id (s.party l.id).retireOnExecutor) := by
    simp only [step, hretiring, haccepting, Nat.zero_lt_one, and_self, if_true]
  have hpost : 0 < ((s.setParty l.id (s.party l.id).retireOnExecutor).party l.id).posted := by
    simp [Listening.setParty, Party.retireOnExecutor, Party.notifyIfDrained, hsessions]
  obtain ⟨s', hsecond, hcount⟩ := (inv_step h hfirst).drained_posted chk hl hlocked hpost
  exact ⟨s', by simp only [Run.run, hfirst, hsecond], hcount⟩

theorem Inv.drains (h : Inv s) {l : Listener} (hl : l ∈ s.server.listeners)
    (hsessions : (s.party l.id).sessions = []) (hlocked : s.server.controlLocked = false) :
    Drains chk s l := by
  by_cases hin : l.id ∈ (s.server.table l.protocol).retired
  · cases h.parties.leaving l.protocol l.id hin with
    | told _ _ hretiring hposted _ =>
      cases haccepting : (s.party l.id).accepting with
      | false =>
        obtain ⟨s', hrun, hcount⟩ := h.drains_told chk hl hsessions hlocked hretiring haccepting
        exact ⟨_, s', by simp, hrun, hcount⟩
      | true =>
        -- the accept that is under way ends first
        have hgate : step chk s (.gate l.id .refused) =
            some (s.setParty l.id { s.party l.id with accepting := false }) := by
          simp only [step, haccepting, if_true, h.layout.getElem?_id hl, Option.map_some,
            Core.onGate, Party.settle, ite_self]
        obtain ⟨s', hrun, hcount⟩ := (inv_step h hgate).drains_told chk hl
          (by simpa [Listening.setParty] using hsessions) hlocked
          (by simpa [Listening.setParty] using hretiring) (by simp [Listening.setParty])
        refine ⟨.gate l.id .refused :: [.retireOnExecutor l.id, .drained l.id], s', ?_, ?_, hcount⟩
        · simp [haccepting]
        · rw [Run.run, hgate]
          exact hrun
    | draining _ _ _ _ _ _ hne => exact absurd hsessions hne
    | drained _ _ _ hposted _ _ =>
      obtain ⟨s', hstep, hcount⟩ := h.drained_posted chk hl hlocked (by omega)
      exact ⟨[.drained l.id], s', by simp, Run.run_single.mpr hstep, hcount⟩
  · exact ⟨[], s, by simp, rfl, List.count_eq_zero.mpr hin⟩

theorem Inv.followed (h : Inv s) : Followed chk s where
  ports := h.layout.activePorts
  retired _ hl hretired := h.retiredOnce hl hretired
  drains _ hl _ hsessions hlocked := h.drains hl hsessions hlocked

/-- The snapshot and the maps of active listeners are the same. -/
def SameMaps (s s' : Server) : Prop :=
  s'.runtime = s.runtime ∧ ∀ protocol, (s'.table protocol).active = (s.table protocol).active

theorem sameMaps_of_frame {server server' : Server} (hruntime : server'.runtime = server.runtime)
    (hhttp : server'.http.active = server.http.active)
    (htls : server'.tls.active = server.tls.active) : SameMaps server server' := by
  refine ⟨hruntime, fun protocol => ?_⟩
  cases protocol with
  | http => exact hhttp
  | https => exact htls

theorem sameMaps_destroyPrepared (server : Server) : SameMaps server (destroyPrepared server) := by
  unfold destroyPrepared
  split
  · exact sameMaps_of_frame rfl rfl rfl
  · exact sameMaps_of_frame rfl rfl rfl

theorem Inv.sameMaps_addListener (h : Inv s) (env : Network) (protocol : Protocol)
    (revision port : Nat) :
    match addListener env protocol revision port s.server with
    | .ok _ server => SameMaps s.server server
    | .error _ server => SameMaps s.server (destroyPrepared server) := by
  rw [addListener_eq h.layout.ids_lt]
  split
  · rename_i hok
    split at hok
    · cases hok
      exact sameMaps_of_frame rfl rfl rfl
    · split at hok
      · cases hok
      · split at hok
        · cases hok
        · cases hok
          exact sameMaps_of_frame rfl rfl rfl
  · rename_i herror
    split at herror
    · cases herror
    · split at herror
      · cases herror
        exact sameMaps_destroyPrepared _
      · split at herror
        · cases herror
          have hdestroyed := sameMaps_destroyPrepared (s.server.grown protocol port revision)
          exact ⟨hdestroyed.1, fun protocol' => (hdestroyed.2 protocol').trans
            (by cases protocol' <;> rfl)⟩
        · cases herror

/-- Only the activation changes the snapshot and the maps. -/
theorem Inv.sameMaps (h : Inv s) {e : Event} (hs : step chk s e = some s') (he : e ≠ .commit) :
    SameMaps s.server s'.server := by
  cases e with
  | prepare env spec =>
    simp only [step] at hs
    split at hs
    · cases hs
    · rename_i hlock
      have hlock : s.server.controlLocked = false := by simpa using hlock
      have hnone := h.layout.prepared_none hlock
      split at hs
      · rename_i next server hbegin
        obtain ⟨-, rfl⟩ := beginReload_ok hlock hnone h.layout.started hbegin
        cases hs
        exact sameMaps_of_frame rfl rfl rfl
      · rename_i e server hbegin
        obtain rfl := beginReload_error hlock hnone h.layout.started hbegin
        cases hs
        exact sameMaps_of_frame rfl rfl rfl
  | round env =>
    simp only [step] at hs
    split at hs
    · rename_i protocol port rest p hrounds hp
      have hmaps := h.sameMaps_addListener env protocol p.next.revision port
      split at hs
      · rename_i hadd
        rw [hadd] at hmaps
        cases hs
        exact hmaps
      · rename_i hadd
        rw [hadd] at hmaps
        cases hs
        exact hmaps
    · cases hs
  | finish =>
    simp only [step] at hs
    split at hs
    · cases hs
      rw [h.layout.started]
      exact sameMaps_of_frame rfl rfl rfl
    · cases hs
  | commit => exact absurd rfl he
  | drop =>
    simp only [step] at hs
    split at hs
    · cases hs
      exact sameMaps_destroyPrepared _
    · cases hs
  | accept id =>
    simp only [step] at hs
    split_ifs at hs
    obtain ⟨l, -, rfl⟩ := Option.map_eq_some_iff.mp hs
    exact sameMaps_of_frame rfl rfl rfl
  | gate id admission =>
    simp only [step] at hs
    split_ifs at hs
    obtain ⟨l, -, rfl⟩ := Option.map_eq_some_iff.mp hs
    exact sameMaps_of_frame rfl rfl rfl
  | acceptFailed id =>
    simp only [step] at hs
    split_ifs at hs
    cases hs
    exact sameMaps_of_frame rfl rfl rfl
  | closeSession id session =>
    simp only [step] at hs
    split_ifs at hs
    cases hs
    exact sameMaps_of_frame rfl rfl rfl
  | retireOnExecutor id =>
    simp only [step] at hs
    split_ifs at hs
    cases hs
    exact sameMaps_of_frame rfl rfl rfl
  | drained id =>
    simp only [step] at hs
    split_ifs at hs
    obtain ⟨l, -, rfl⟩ := Option.map_eq_some_iff.mp hs
    unfold drainedStep
    cases l.protocol <;> exact sameMaps_of_frame rfl rfl rfl

theorem Inv.moved (h : Inv s) {e : Event} (hs : step chk s e = some s') : Moved s s' := by
  by_cases he : e = .commit
  · subst he
    have hinv := inv_step h hs
    simp only [step] at hs
    split at hs
    · rename_i p hrounds hp
      cases hs
      have hok := h.layout.prepared p hp
      obtain ⟨htable, hruntime, -, -, -, hlisteners⟩ := activate_eq hp hok.started
      simp only [commitStep, hok.started, if_true, retireParties]
      constructor
      · intro protocol port id hactive hport
        rw [hruntime] at hport
        rw [htable]
        exact (hok.filled hrounds protocol).kept hactive hport
      · intro protocol port id hactive hport
        rw [hruntime] at hport
        obtain ⟨hretire, hretired⟩ := (hok.filled hrounds protocol).retired hactive hport
        obtain ⟨l, hl, hprotocol⟩ := h.layout.bound protocol id
          (mem_holds.mpr (.inl (.inl (List.mem_map_of_mem hactive))))
        have hid := h.layout.ids id l hl
        refine ⟨l.retire, ?_, hid, hprotocol, rfl, ?_⟩
        · rw [hlisteners]
          refine List.mem_map.mpr ⟨l, List.mem_of_getElem? hl, ?_⟩
          rw [if_pos ((mem_retire_iff p l.id).mpr ⟨protocol, hid ▸ hretire⟩)]
        · rw [htable]
          exact hretired
    · cases hs
  · obtain ⟨hruntime, hactive⟩ := h.sameMaps hs he
    constructor
    · intro protocol port id hin _
      rw [hactive]
      exact hin
    · intro protocol port id hin hport
      rw [hruntime, ← (h.layout.activePorts protocol).mem_iff] at hport
      exact absurd (List.mem_map_of_mem hin) hport

/-! ## The gate -/

/-- A reload that binds a port has a larger revision than the snapshot that is published, and what an
activation publishes is older than each listener that was dropped and is still in `on_accept`. -/
def Gated (chk : Checks) (s : Listening) : Event → Prop
  | .prepare _ spec => ∀ next, buildRuntimeConfig chk spec = .ok next →
      (∃ protocol, ∃ port ∈ ports next protocol,
        port ∉ (s.server.table protocol).active.map Prod.fst) →
      s.server.runtime.revision < spec.revision
  | .commit => ∀ p, s.server.prepared = some p → ∀ l ∈ s.server.listeners, l.stopped = true →
      (s.party l.id).accepting = true → p.next.revision < l.minimumRuntimeRevision
  | _ => True

instance decidableGated (chk : Checks) (s : Listening) : ∀ e, Decidable (Gated chk s e)
  | .prepare _ spec =>
    match hbuild : buildRuntimeConfig chk spec with
    | .error _ => isTrue fun next h => by rw [hbuild] at h; cases h
    | .ok next => decidable_of_iff
        ((∃ port ∈ ports next .http, port ∉ (s.server.table .http).active.map Prod.fst) ∨
          (∃ port ∈ ports next .https, port ∉ (s.server.table .https).active.map Prod.fst) →
          s.server.runtime.revision < spec.revision) (by
      constructor
      · rintro h next' hnext ⟨protocol, hport⟩
        cases hbuild.symm.trans hnext
        cases protocol with
        | http => exact h (.inl hport)
        | https => exact h (.inr hport)
      · intro h hport
        exact h next hbuild (hport.elim (fun hp => ⟨.http, hp⟩) fun hp => ⟨.https, hp⟩))
  | .commit =>
    match hp : s.server.prepared with
    | none => isTrue fun p h => by rw [hp] at h; cases h
    | some p => decidable_of_iff (∀ l ∈ s.server.listeners, l.stopped = true →
        (s.party l.id).accepting = true → p.next.revision < l.minimumRuntimeRevision)
        ⟨fun h p' hp' => by cases hp.symm.trans hp'; exact h, fun h => h p hp⟩
  | .round _ | .finish | .drop | .accept _ | .gate _ _ | .acceptFailed _ | .closeSession _ _
  | .retireOnExecutor _ | .drained _ => isTrue trivial

/-- No session was created by a listener whose reload is not activated, or was dropped. -/
def NoEarlySession (s : Listening) : Prop :=
  ∀ l ∈ s.server.listeners, l.stopped = true ∨ l.id ∈ s.server.addedOf l.protocol →
    (s.party l.id).created = 0

/-- The gate of the listeners that a reload has started is closed. -/
structure GateInv (s : Listening) : Prop where
  early : ∀ i, (∃ l, s.server.listeners[i]? = some l ∧ l.stopped = true) ∨
    (∃ protocol, i ∈ s.server.addedOf protocol) → (s.party i).created = 0
  unborn : ∀ i, s.server.listeners.length ≤ i → (s.party i).created = 0
  gate : ∀ p, s.server.prepared = some p → s.server.runtime.revision < p.next.revision ∨
    ∀ protocol, (p.table protocol).added = [] ∧
      ∀ port ∈ ports p.next protocol, port ∈ (s.server.table protocol).active.map Prod.fst
  minimum : ∀ p, s.server.prepared = some p → ∀ protocol, ∀ i ∈ (p.table protocol).added,
    ∃ l, s.server.listeners[i]? = some l ∧ l.minimumRuntimeRevision = p.next.revision
  /-- what is left of `on_accept` in a listener that was dropped -/
  late : ∀ i l, s.server.listeners[i]? = some l → l.stopped = true →
    (s.party i).accepting = true → s.server.runtime.revision < l.minimumRuntimeRevision

theorem GateInv.noEarlySession (h : Inv s) (hgate : GateInv s) : NoEarlySession s := by
  intro l hl hearly
  refine hgate.early l.id ?_
  rcases hearly with hstopped | hadded
  · exact .inl ⟨l, h.layout.getElem?_id hl, hstopped⟩
  · exact .inr ⟨l.protocol, hadded⟩

@[simp]
theorem notifyIfDrained_created (q : Party) : q.notifyIfDrained.created = q.created := by
  unfold Party.notifyIfDrained
  split <;> rfl

@[simp]
theorem notifyIfDrained_accepting (q : Party) : q.notifyIfDrained.accepting = q.accepting := by
  unfold Party.notifyIfDrained
  split <;> rfl

theorem mem_addedOf {server : Server} {p : PreparedReload} (hp : server.prepared = some p)
    (protocol : Protocol) : server.addedOf protocol = (p.table protocol).added := by
  rw [Server.addedOf, hp]

theorem mem_added_iff (p : PreparedReload) (i : Nat) :
    i ∈ p.added ↔ ∃ protocol, i ∈ (p.table protocol).added := by
  rw [PreparedReload.added, List.mem_append]
  constructor
  · rintro (hi | hi)
    · exact ⟨.http, hi⟩
    · exact ⟨.https, hi⟩
  · rintro ⟨protocol, hi⟩
    cases protocol with
    | http => exact .inl hi
    | https => exact .inr hi

/-- Nothing that the gate depends on has changed. -/
theorem GateInv.frame (h : GateInv s) (hlisteners : s'.server.listeners = s.server.listeners)
    (hmaps : SameMaps s.server s'.server)
    (hprepared : ∀ p', s'.server.prepared = some p' → ∃ p, s.server.prepared = some p ∧
      p'.next = p.next ∧ ∀ protocol, (p'.table protocol).added = (p.table protocol).added)
    (hcreated : ∀ i, (s'.party i).created = (s.party i).created)
    (haccepting : ∀ i, (s'.party i).accepting = true → (s.party i).accepting = true) :
    GateInv s' where
  early i hi := by
    rw [hcreated]
    refine h.early i ?_
    rw [hlisteners] at hi
    refine hi.imp id ?_
    rintro ⟨protocol, hadded⟩
    refine ⟨protocol, ?_⟩
    cases hp' : s'.server.prepared with
    | none => simp [Server.addedOf, hp'] at hadded
    | some p' =>
      obtain ⟨p, hp, -, hsame⟩ := hprepared p' hp'
      rwa [mem_addedOf hp', hsame, ← mem_addedOf hp] at hadded
  unborn i hi := by
    rw [hcreated]
    exact h.unborn i (hlisteners ▸ hi)
  gate p' hp' := by
    obtain ⟨p, hp, hnext, hsame⟩ := hprepared p' hp'
    simp only [hmaps.1, hmaps.2, hnext, hsame]
    exact h.gate p hp
  minimum p' hp' := by
    obtain ⟨p, hp, hnext, hsame⟩ := hprepared p' hp'
    simp only [hlisteners, hnext, hsame]
    exact h.minimum p hp
  late i l hl hstopped hlate := by
    rw [hmaps.1]
    exact h.late i l (hlisteners ▸ hl) hstopped (haccepting i hlate)

/-- What one listener does on its executor without creating a session. -/
theorem GateInv.setParty (h : GateInv s) {i : Nat} {q : Party}
    (hq : q.created = (s.party i).created)
    (haccepting : q.accepting = true → (s.party i).accepting = true) :
    GateInv (s.setParty i q) := by
  refine h.frame rfl ⟨rfl, fun _ => rfl⟩ (fun p hp => ⟨p, hp, rfl, fun _ => rfl⟩) (fun j => ?_)
    fun j => ?_
  · by_cases hj : j = i
    · subst hj
      simp [Listening.setParty, hq]
    · simp [Listening.setParty, Function.update_of_ne hj]
  · by_cases hj : j = i
    · subst hj
      simpa [Listening.setParty] using haccepting
    · simp [Listening.setParty, Function.update_of_ne hj]

/-- An accept goes on in a listener that was not dropped. -/
theorem GateInv.onAccept (hinv : Inv s) (h : GateInv s) {l : Listener}
    (hl : l ∈ s.server.listeners) : GateInv (Core.onAccept s l) := by
  have hget := hinv.layout.getElem?_id hl
  unfold Core.onAccept
  simp only []
  split
  · exact h.setParty (notifyIfDrained_created _) (by simp)
  · rename_i hopen
    simp only [Bool.or_eq_true, not_or, Bool.not_eq_true] at hopen
    have hcreated : ∀ i, ((s.setParty l.id { s.party l.id with accepting := true }).party i).created =
        (s.party i).created := by
      intro i
      by_cases hi : i = l.id
      · subst hi
        simp [Listening.setParty]
      · simp [Listening.setParty, Function.update_of_ne hi]
    refine ⟨fun i hi => (hcreated i).trans (h.early i hi),
      fun i hi => (hcreated i).trans (h.unborn i hi), h.gate, h.minimum, ?_⟩
    intro i l' hl' hstopped hlate
    by_cases hi : i = l.id
    · subst hi
      rw [show (s.setParty l.id _).server.listeners[l.id]? = _ from hget] at hl'
      cases hl'
      rw [hopen.1] at hstopped
      cases hstopped
    · exact h.late i l' hl' hstopped (by simpa [Listening.setParty, Function.update_of_ne hi] using hlate)

/-- The gate of a listener is closed as long as its reload is not activated. -/
theorem GateInv.closed (h : GateInv s) {l : Listener} (hget : s.server.listeners[l.id]? = some l)
    (haccepting : (s.party l.id).accepting = true)
    (hearly : l.stopped = true ∨ ∃ protocol, l.id ∈ s.server.addedOf protocol) :
    s.server.runtime.revision < l.minimumRuntimeRevision := by
  rcases hearly with hstopped | ⟨protocol, hadded⟩
  · exact h.late l.id l hget hstopped haccepting
  · cases hp : s.server.prepared with
    | none => simp [Server.addedOf, hp] at hadded
    | some p =>
      rw [mem_addedOf hp] at hadded
      obtain ⟨l', hl', hminimum⟩ := h.minimum p hp protocol l.id hadded
      rw [hget] at hl'
      cases hl'
      rcases h.gate p hp with hgate | hnone
      · rw [hminimum]
        exact hgate
      · rw [(hnone protocol).1] at hadded
        cases hadded

/-- Only a listener whose gate is open creates a session. -/
theorem GateInv.onGate (hinv : Inv s) (h : GateInv s) {l : Listener} (hl : l ∈ s.server.listeners)
    (haccepting : (s.party l.id).accepting = true) (admission : Admission) :
    GateInv (Core.onGate s l admission) := by
  have hget := hinv.layout.getElem?_id hl
  unfold Core.onGate
  simp only []
  split
  · exact h.setParty rfl (by simp)
  · rename_i hrevision
    set q := Party.settle { s.party l.id with accepting := false } admission with hq
    have hdone : q.accepting = false := by
      rw [hq]
      cases admission <;> rfl
    have hne : ∀ i, i ≠ l.id → (s.setParty l.id q).party i = s.party i := fun i hi =>
      Function.update_of_ne hi _ _
    constructor
    · intro i hi
      by_cases hil : i = l.id
      · -- the gate of such a listener is closed
        subst hil
        refine absurd (h.closed hget haccepting (hi.imp ?_ id)) hrevision
        rintro ⟨l', hl', hstopped⟩
        rw [show (s.setParty l.id q).server.listeners[l.id]? = _ from hget] at hl'
        cases hl'
        exact hstopped
      · rw [hne i hil]
        exact h.early i hi
    · intro i hi
      have hlt := hinv.layout.ids_lt l hl
      rw [hne i (fun hil => by subst hil; exact absurd hlt (by simpa [Listening.setParty] using hi))]
      exact h.unborn i hi
    · exact h.gate
    · exact h.minimum
    · intro i l' hl' hstopped hlate
      by_cases hil : i = l.id
      · subst hil
        rw [show (s.setParty l.id q).party l.id = q from Function.update_self _ _ _, hdone] at hlate
        cases hlate
      · rw [hne i hil] at hlate
        exact h.late i l' hl' hstopped hlate

/-- A reload is dropped: its listeners are told to stop. -/
theorem GateInv.destroy (h : GateInv s)
    (hids : ∀ (i : Nat) (l : Listener), s.server.listeners[i]? = some l → l.id = i)
    (rounds : Option (List (Protocol × Nat))) :
    GateInv { s with server := destroyPrepared s.server, rounds := rounds } := by
  cases hp : s.server.prepared with
  | none =>
    have hsame : destroyPrepared s.server = s.server := by simp only [destroyPrepared, hp]
    rw [hsame]
    exact h.frame rfl ⟨rfl, fun _ => rfl⟩ (fun p hp => ⟨p, hp, rfl, fun _ => rfl⟩) (fun _ => rfl)
      fun _ => id
  | some p =>
    have hs : destroyPrepared s.server = { s.server.tell p.added Listener.stop with
        controlLocked := false, prepared := none } := by
      simp only [destroyPrepared, hp]
    rw [hs]
    constructor
    · rintro i (⟨l, hl, hstopped⟩ | ⟨protocol, hadded⟩)
      · rw [show ({ s.server.tell p.added Listener.stop with
          controlLocked := false, prepared := none } : Server).listeners[i]? = _ from
            getElem?_tell s.server p.added Listener.stop i, Option.map_eq_some_iff] at hl
        obtain ⟨l₀, hl₀, rfl⟩ := hl
        by_cases hadded : l₀.id ∈ p.added
        · obtain ⟨protocol, hadded⟩ := (mem_added_iff p l₀.id).mp hadded
          rw [← mem_addedOf hp, hids i l₀ hl₀] at hadded
          exact h.early i (.inr ⟨protocol, hadded⟩)
        · rw [if_neg hadded] at hstopped
          exact h.early i (.inl ⟨l₀, hl₀, hstopped⟩)
      · cases hadded
    · intro i hi
      exact h.unborn i (by simpa [Server.tell] using hi)
    · intro p' hp'
      cases hp'
    · intro p' hp'
      cases hp'
    · intro i l hl hstopped hlate
      rw [show ({ s.server.tell p.added Listener.stop with
        controlLocked := false, prepared := none } : Server).listeners[i]? = _ from
          getElem?_tell s.server p.added Listener.stop i, Option.map_eq_some_iff] at hl
      obtain ⟨l₀, hl₀, rfl⟩ := hl
      obtain rfl := hids i l₀ hl₀
      have hminimum : (if l₀.id ∈ p.added then l₀.stop else l₀).minimumRuntimeRevision =
          l₀.minimumRuntimeRevision := by split <;> rfl
      rw [hminimum]
      by_cases hadded : l₀.id ∈ p.added
      · obtain ⟨protocol, hadded⟩ := (mem_added_iff p l₀.id).mp hadded
        rw [← mem_addedOf hp] at hadded
        exact h.closed hl₀ hlate (.inr ⟨protocol, hadded⟩)
      · rw [if_neg hadded] at hstopped
        exact h.closed hl₀ hlate (.inl hstopped)

/-- One more listener was bound, behind a closed gate. -/
theorem GateInv.grown (h : GateInv s) {p : PreparedReload} (hp : s.server.prepared = some p)
    (hgate : s.server.runtime.revision < p.next.revision) (protocol : Protocol) (port : Nat) :
    GateInv { s with server := s.server.grown protocol port p.next.revision } := by
  set server := s.server.grown protocol port p.next.revision with hserver
  have hp' : server.prepared = some (p.own protocol s.server.listeners.length) := by
    simp only [hserver, Server.grown, Server.modifyPrepared, Server.append, hp, Option.map_some]
  have hold : ∀ (i : Nat) (l : Listener), s.server.listeners[i]? = some l →
      server.listeners[i]? = some l := by
    intro i l hl
    change (s.server.listeners ++ [_])[i]? = some l
    rw [List.getElem?_append_left (List.getElem?_eq_some_iff.mp hl).1]
    exact hl
  have hnew : server.listeners[s.server.listeners.length]? = some (Listener.start p.next.revision
      { id := s.server.listeners.length, protocol := protocol, port := port }) := by
    change (s.server.listeners ++ [_])[_]? = _
    simp
  have hown : ∀ protocol', ∀ i ∈ ((p.own protocol s.server.listeners.length).table protocol').added,
      i ∈ (p.table protocol').added ∨ i = s.server.listeners.length := by
    intro protocol' i hi
    cases protocol <;> cases protocol' <;>
      first
      | exact .inl hi
      | exact (List.mem_append.mp hi).imp id List.mem_singleton.mp
  have hnext : (p.own protocol s.server.listeners.length).next = p.next := by
    cases protocol <;> rfl
  constructor
  · rintro i (⟨l, hl, hstopped⟩ | ⟨protocol', hadded⟩)
    · rcases Nat.lt_trichotomy i s.server.listeners.length with hi | rfl | hi
      · have hl₀ := List.getElem?_eq_getElem hi
        rw [hold i _ hl₀] at hl
        cases hl
        exact h.early i (.inl ⟨_, hl₀, hstopped⟩)
      · exact h.unborn _ le_rfl
      · exact h.unborn i hi.le
    · rw [mem_addedOf hp'] at hadded
      rcases hown protocol' i hadded with hadded | rfl
      · exact h.early i (.inr ⟨protocol', by rwa [mem_addedOf hp]⟩)
      · exact h.unborn _ le_rfl
  · intro i hi
    have hlength : server.listeners.length = s.server.listeners.length + 1 := List.length_append
    exact h.unborn i (by rw [show _ = _ from hlength] at hi; omega)
  · intro p₁ hp₁
    rw [show _ = _ from hp'] at hp₁
    cases hp₁
    rw [hnext]
    exact .inl hgate
  · intro p₁ hp₁ protocol' i hadded
    rw [show _ = _ from hp'] at hp₁
    cases hp₁
    rw [hnext]
    rcases hown protocol' i hadded with hadded | rfl
    · obtain ⟨l, hl, hminimum⟩ := h.minimum p hp protocol' i hadded
      exact ⟨l, hold i l hl, hminimum⟩
    · exact ⟨_, hnew, rfl⟩
  · intro i l hl hstopped hlate
    have hlist : server.listeners = s.server.listeners ++ [Listener.start p.next.revision
        { id := s.server.listeners.length, protocol := protocol, port := port }] := rfl
    rw [show (_ : List Listener) = _ from hlist, List.getElem?_append] at hl
    split at hl
    · exact h.late i l hl hstopped hlate
    · rw [List.getElem?_singleton] at hl
      split at hl
      · cases hl
        cases hstopped
      · cases hl

/-- A round that is not skipped binds a port that is not served yet. -/
theorem Inv.gate_of_round (hinv : Inv s) (h : GateInv s) {protocol : Protocol} {port : Nat}
    {rest : List (Protocol × Nat)} (hrounds : s.rounds = some ((protocol, port) :: rest))
    {p : PreparedReload} (hp : s.server.prepared = some p)
    (hfinal : s.server.hasFinal protocol port = false) :
    s.server.runtime.revision < p.next.revision := by
  refine (h.gate p hp).resolve_right fun hnone => ?_
  have hok := hinv.layout.prepared p hp
  have hport := (hnone protocol).2 port (hok.wanted _ hrounds (protocol, port) (by simp))
  obtain ⟨news, hnews, -⟩ := (hok.filling _ hrounds protocol).final
  obtain ⟨e, he, rfl⟩ := List.mem_map.mp hport
  have hany : s.server.hasFinal protocol e.1 = true := by
    simp only [Server.hasFinal, hp, Option.any_some, List.any_eq_true]
    refine ⟨e, ?_, by simp⟩
    rw [hnews]
    exact List.mem_append.mpr (.inl he)
  rw [hfinal] at hany
  cases hany

theorem GateInv.round (hinv : Inv s) (h : GateInv s) (env : Network) {protocol : Protocol}
    {port : Nat} {rest : List (Protocol × Nat)}
    (hrounds : s.rounds = some ((protocol, port) :: rest)) {p : PreparedReload}
    (hp : s.server.prepared = some p) :
    match addListener env protocol p.next.revision port s.server with
    | .ok _ server => GateInv { s with server := server, rounds := some rest }
    | .error _ server => GateInv { s with server := destroyPrepared server, rounds := none } := by
  rw [addListener_eq hinv.layout.ids_lt]
  cases hfinal : s.server.hasFinal protocol port with
  | true =>
    exact h.frame rfl ⟨rfl, fun _ => rfl⟩ (fun p hp => ⟨p, hp, rfl, fun _ => rfl⟩) (fun _ => rfl)
      fun _ => id
  | false =>
    have hgrown := h.grown hp (hinv.gate_of_round h hrounds hp hfinal) protocol port
    simp only [Bool.false_eq_true, if_false]
    cases env.bind protocol port with
    | some e => exact h.destroy hinv.layout.ids none
    | none =>
      cases env.start protocol port with
      | some e =>
        exact hgrown.destroy (grows_grown hinv.layout protocol port p.next.revision).ids none
      | none =>
        refine hgrown.frame rfl (sameMaps_of_frame rfl rfl rfl) (fun p' hp' => ?_) (fun _ => rfl)
          fun _ => id
        obtain ⟨p₁, hp₁, rfl⟩ := Option.map_eq_some_iff.mp hp'
        refine ⟨p₁, hp₁, ?_⟩
        cases protocol <;> exact ⟨rfl, fun protocol' => by cases protocol' <;> rfl⟩

theorem gateInv_prepare {env : Network} {spec : RuntimeConfigSpec} {next : RuntimeConfig}
    (h : GateInv s) (hg : Gated chk s (.prepare env spec))
    (hbuild : buildRuntimeConfig chk spec = .ok next) (rounds : Option (List (Protocol × Nat))) :
    GateInv { s with server := s.server.opened next spec, rounds := rounds } where
  early i hi := by
    refine h.early i (hi.imp id ?_)
    rintro ⟨protocol, hadded⟩
    cases protocol <;> cases hadded
  unborn := h.unborn
  gate p hp := by
    cases hp
    by_cases hnew : ∃ protocol, ∃ port ∈ ports next protocol,
        port ∉ (s.server.table protocol).active.map Prod.fst
    · refine .inl ?_
      rw [buildRuntimeConfig_revision chk hbuild]
      exact hg next hbuild hnew
    · push Not at hnew
      refine .inr fun protocol => ?_
      cases protocol with
      | http => exact ⟨rfl, hnew .http⟩
      | https => exact ⟨rfl, hnew .https⟩
  minimum p hp protocol i hi := by
    cases hp
    cases protocol <;> cases hi
  late := h.late

theorem gateInv_commit (hinv : Inv s) (h : GateInv s) {p : PreparedReload}
    (hp : s.server.prepared = some p) (hg : Gated chk s .commit) : GateInv (commitStep s p) := by
  have hstarted := (hinv.layout.prepared p hp).started
  obtain ⟨-, hruntime, hnone, -, -, hlisteners⟩ := activate_eq hp hstarted
  have hcreated : ∀ i, ((commitStep s p).party i).created = (s.party i).created := by
    intro i
    simp only [commitStep, hstarted, if_true, retireParties]
    split <;> rfl
  have hserver : (commitStep s p).server = activate s.server := by
    simp only [commitStep, hstarted, if_true, retireParties]
  constructor
  · rintro i (⟨l, hl, hstopped⟩ | ⟨protocol, hadded⟩)
    · rw [hserver, hlisteners, List.getElem?_map, Option.map_eq_some_iff] at hl
      obtain ⟨l₀, hl₀, rfl⟩ := hl
      rw [hcreated]
      refine h.early i (.inl ⟨l₀, hl₀, ?_⟩)
      split at hstopped <;> exact hstopped
    · simp [Server.addedOf, hserver, hnone] at hadded
  · intro i hi
    rw [hcreated]
    refine h.unborn i ?_
    rwa [hserver, hlisteners, List.length_map] at hi
  · intro p' hp'
    rw [hserver, hnone] at hp'
    cases hp'
  · intro p' hp'
    rw [hserver, hnone] at hp'
    cases hp'
  · intro i l hl hstopped hlate
    rw [hserver, hlisteners, List.getElem?_map, Option.map_eq_some_iff] at hl
    obtain ⟨l₀, hl₀, rfl⟩ := hl
    obtain rfl := hinv.layout.ids i l₀ hl₀
    have haccepting : (s.party l₀.id).accepting = true := by
      simp only [commitStep, hstarted, if_true, retireParties] at hlate
      split at hlate <;> exact hlate
    have hstopped₀ : l₀.stopped = true := by split at hstopped <;> exact hstopped
    rw [hserver, hruntime]
    refine (hg p hp l₀ (List.mem_of_getElem? hl₀) hstopped₀ haccepting).trans_eq ?_
    split <;> rfl

theorem gateInv_step {e : Event} (hinv : Inv s) (h : GateInv s) (hg : Gated chk s e)
    (hs : step chk s e = some s') : GateInv s' := by
  cases e with
  | prepare env spec =>
    simp only [step] at hs
    split at hs
    · cases hs
    · rename_i hlock
      have hlock : s.server.controlLocked = false := by simpa using hlock
      have hnone := hinv.layout.prepared_none hlock
      split at hs
      · rename_i next server hbegin
        obtain ⟨hbuild, rfl⟩ := beginReload_ok hlock hnone hinv.layout.started hbegin
        cases hs
        exact gateInv_prepare h hg hbuild _
      · rename_i e server hbegin
        obtain rfl := beginReload_error hlock hnone hinv.layout.started hbegin
        cases hs
        exact h
  | round env =>
    simp only [step] at hs
    split at hs
    · rename_i protocol port rest p hrounds hp
      have hround := h.round hinv env hrounds hp
      split at hs
      · rename_i hadd
        rw [hadd] at hround
        cases hs
        exact hround
      · rename_i hadd
        rw [hadd] at hround
        cases hs
        exact hround
    · cases hs
  | finish =>
    simp only [step] at hs
    split at hs
    · cases hs
      rw [hinv.layout.started]
      refine h.frame rfl (sameMaps_of_frame rfl rfl rfl) (fun p' hp' => ?_) (fun _ => rfl)
        fun _ => id
      obtain ⟨p, hp, rfl⟩ := Option.map_eq_some_iff.mp hp'
      exact ⟨p, hp, rfl, fun protocol => by cases protocol <;> rfl⟩
    · cases hs
  | commit =>
    simp only [step] at hs
    split at hs
    · rename_i p hrounds hp
      cases hs
      exact gateInv_commit hinv h hp hg
    · cases hs
  | drop =>
    simp only [step] at hs
    split at hs
    · cases hs
      exact h.destroy hinv.layout.ids s.rounds
    · cases hs
  | accept id =>
    simp only [step] at hs
    split_ifs at hs
    obtain ⟨l, hl, rfl⟩ := Option.map_eq_some_iff.mp hs
    exact h.onAccept hinv (List.mem_of_getElem? hl)
  | gate id admission =>
    simp only [step] at hs
    split_ifs at hs with haccepting
    obtain ⟨l, hl, rfl⟩ := Option.map_eq_some_iff.mp hs
    obtain rfl := hinv.layout.ids id l hl
    exact h.onGate hinv (List.mem_of_getElem? hl) haccepting admission
  | acceptFailed id =>
    simp only [step] at hs
    split_ifs at hs
    cases hs
    exact h.setParty (notifyIfDrained_created _) (by simp)
  | closeSession id session =>
    simp only [step] at hs
    split_ifs at hs
    cases hs
    exact h.setParty (notifyIfDrained_created _) (by simp [Party.closeSession])
  | retireOnExecutor id =>
    simp only [step] at hs
    split_ifs at hs
    cases hs
    exact h.setParty (notifyIfDrained_created _) (by simp [Party.retireOnExecutor])
  | drained id =>
    simp only [step] at hs
    split_ifs at hs
    obtain ⟨l, -, rfl⟩ := Option.map_eq_some_iff.mp hs
    have hsame : SameMaps s.server (drainedStep s l).server := by
      unfold drainedStep
      cases l.protocol <;> exact sameMaps_of_frame rfl rfl rfl
    have hparty : GateInv (s.setParty l.id { s.party l.id with
        posted := (s.party l.id).posted - 1
        erased := (s.party l.id).erased + (s.server.table l.protocol).retired.count l.id }) :=
      h.setParty rfl fun h => h
    refine hparty.frame ?_ hsame (fun p hp => ⟨p, ?_, rfl, fun _ => rfl⟩) (fun _ => rfl)
      fun _ h => h
    · cases hprotocol : l.protocol <;> simp only [drainedStep, onDrained, hprotocol] <;> rfl
    · rw [show (s.setParty l.id _).server = s.server from rfl, ← hp]
      cases hprotocol : l.protocol <;> simp only [drainedStep, onDrained, hprotocol]

theorem gateInv_start {env : Network} {c : RuntimeConfig} {server : Server} {u : Unit}
    (h : startServer env (Server.constructed c) = .ok u server) : GateInv { server := server } := by
  obtain ⟨http, tls, -, hframe, -⟩ := startServer_ok h
  have hnone : server.prepared = none := by rw [hframe]; rfl
  refine ⟨fun _ _ => rfl, fun _ _ => rfl, fun p hp => ?_, fun p hp => ?_,
    fun _ _ _ _ hlate => by cases hlate⟩
  · rw [hnone] at hp
    cases hp
  · rw [hnone] at hp
    cases hp

/-- Across every run of reloads of a started server, whichever of them are activated, dropped or
fail: the maps follow the snapshot, and listeners that were taken out are erased once their last
session has closed. A listener whose reload is not activated creates no session, as long as reloads
that bind a port increase the revision and no activation overtakes the last `on_accept` of a listener
that was dropped. -/
theorem listeners_follow {spec : RuntimeConfigSpec} {c : RuntimeConfig} {env : Network}
    {server : Server} (hc : buildRuntimeConfig chk spec = .ok c)
    (hstart : startServer env (Server.constructed c) = .ok () server) {events : List Event}
    (hrun : Run.run (step chk) { server := server } events = some s) :
    Followed chk s ∧ (∀ e s', step chk s e = some s' → Moved s s') ∧
      (Run.Along (step chk) (Gated chk) { server := server } events → NoEarlySession s) := by
  have hinv₀ := inv_start hc hstart
  have hinv : Inv s := Run.run_inv (fun _ _ _ => inv_step) hinv₀ hrun
  refine ⟨hinv.followed, fun _ _ => hinv.moved, fun hgated => ?_⟩
  have hboth : Inv s ∧ GateInv s := by
    refine Run.run_inv_along (P := fun s => Inv s ∧ GateInv s) ?_ ⟨hinv₀, gateInv_start hstart⟩
      hgated hrun
    intro s e s' h hg hs
    exact ⟨inv_step h.1 hs, gateInv_step h.1 h.2 hg hs⟩
  exact GateInv.noEarlySession hboth.1 hboth.2

end Results

/-! ## Two reloads that add a port -/

def specFor (revision : Nat) (httpPorts : List Nat) : RuntimeConfigSpec where
  revision := revision
  sites := httpPorts.map fun port => runtimeSite (siteFor "b.test" port)
  tlsCertificates := []
  rejectUnknownSni := true
  settings := {}

def snapshotFor (revision : Nat) (httpPorts : List Nat) : RuntimeConfig :=
  ⟨specFor revision httpPorts, httpPorts, []⟩

/-- One listener serves port 8080 with revision 3. -/
def startedServer : Server :=
  after (startServer calm.network) (Server.constructed (snapshotFor 3 [8080]))

/-- A reload to ports 8080 and 8081; a client connects to the new port before the activation. -/
def addPort (revision : Nat) : List Event :=
  [.prepare calm.network (specFor revision [8080, 8081]), .round calm.network,
    .round calm.network, .finish, .accept 1, .gate 1 .admitted]

/-- The reload with the new port is dropped while a client of that port is being accepted. Then the
server moves to port 8081: the listener of the other port is erased once its session closes. -/
def movePort : List Event :=
  [.prepare calm.network (specFor 4 [8080, 8081]), .round calm.network, .round calm.network, .finish,
    .accept 1, .drop, .gate 1 .admitted, .accept 0, .gate 0 .admitted,
    .prepare calm.network (specFor 4 [8081]), .round calm.network, .finish, .commit,
    .retireOnExecutor 0, .closeSession 0 0, .drained 0]

theorem listeners_follow_movePort :
    (∃ s, Run.run (step lenient) { server := startedServer } movePort = some s ∧
      Followed lenient s ∧ NoEarlySession s ∧ s.server.http = ⟨[(8081, 2)], []⟩) := by
  have hc : buildRuntimeConfig lenient (specFor 3 [8080]) = .ok (snapshotFor 3 [8080]) := by
    decide
  have hstart : startServer calm.network (Server.constructed (snapshotFor 3 [8080])) =
      .ok () startedServer := rfl
  have hsome : (Run.run (step lenient) { server := startedServer } movePort).isSome = true := by
    decide
  obtain ⟨s, hrun⟩ := Option.isSome_iff_exists.mp hsome
  have hgated : Run.Along (step lenient) (Gated lenient) { server := startedServer } movePort := by
    decide
  obtain ⟨hfollowed, -, hearly⟩ := listeners_follow hc hstart hrun
  refine ⟨s, hrun, hfollowed, hearly hgated, ?_⟩
  have hhttp : (Run.run (step lenient) { server := startedServer } movePort).map (·.server.http) =
      some ⟨[(8081, 2)], []⟩ := by decide
  rw [hrun] at hhttp
  exact Option.some.inj hhttp

/-- The same, but the last part of `on_accept` runs after the second activation: the revision that
was dropped is the one that is published now. -/
def moveFirst : List Event :=
  [.prepare calm.network (specFor 4 [8080, 8081]), .round calm.network, .round calm.network, .finish,
    .accept 1, .drop, .prepare calm.network (specFor 4 [8081]), .round calm.network, .finish, .commit,
    .gate 1 .admitted]

theorem session_after_drop :
    ∃ s, Run.run (step lenient) { server := startedServer } moveFirst = some s ∧
      (s.party 1).created = 1 ∧ ¬ NoEarlySession s := by
  have hsome : (Run.run (step lenient) { server := startedServer } moveFirst).isSome = true := by
    decide
  obtain ⟨s, hrun⟩ := Option.isSome_iff_exists.mp hsome
  have hfacts : (Run.run (step lenient) { server := startedServer } moveFirst).map (fun s =>
      ((s.party 1).created, s.server.listeners[1]?)) =
      some (1, some ⟨1, .http, 8081, 4, true, false⟩) := by decide
  rw [hrun] at hfacts
  simp only [Option.map_some, Option.some.injEq, Prod.mk.injEq] at hfacts
  obtain ⟨hcreated, hlistener⟩ := hfacts
  refine ⟨s, hrun, hcreated, fun h => ?_⟩
  have hzero := h _ (List.mem_of_getElem? hlistener) (.inl rfl)
  rw [show (⟨1, Protocol.http, 8081, 4, true, false⟩ : Listener).id = 1 from rfl, hcreated] at hzero
  cases hzero

/-- The revision of the published snapshot is used again: the gate of the new listener is open while
its reload is not activated. -/
theorem session_before_activation :
    ∃ s, Run.run (step lenient) { server := startedServer } (addPort 3) = some s ∧
      s.server.runtime = snapshotFor 3 [8080] ∧ 1 ∈ s.server.addedOf .http ∧
      (s.party 1).created = 1 ∧ ¬ NoEarlySession s := by
  have hsome : (Run.run (step lenient) { server := startedServer } (addPort 3)).isSome = true := by
    decide
  obtain ⟨s, hrun⟩ := Option.isSome_iff_exists.mp hsome
  have hfacts : (Run.run (step lenient) { server := startedServer } (addPort 3)).map (fun s =>
      (s.server.runtime, s.server.addedOf .http, (s.party 1).created, s.server.listeners[1]?)) =
      some (snapshotFor 3 [8080], [1], 1, some ⟨1, .http, 8081, 3, false, false⟩) := by
    decide
  rw [hrun] at hfacts
  simp only [Option.map_some, Option.some.injEq, Prod.mk.injEq] at hfacts
  obtain ⟨hruntime, hadded, hcreated, hlistener⟩ := hfacts
  refine ⟨s, hrun, hruntime, by simp [hadded], hcreated, fun h => ?_⟩
  have hzero := h _ (List.mem_of_getElem? hlistener) (.inr (by simp [hadded]))
  rw [show (⟨1, Protocol.http, 8081, 3, false, false⟩ : Listener).id = 1 from rfl, hcreated] at hzero
  cases hzero

end Core
end WebServer
