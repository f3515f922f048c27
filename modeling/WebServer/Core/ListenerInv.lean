import WebServer.Core.ListenerStages

/-!
# WebServer.Core.ListenerInv

The invariant of a started server across reloads.

* `Layout`: the listeners that are held, the ports of the maps and the prepared object.
* `Parties`: each listener is in the stage that its place asks for.
* `inv_step`: every event keeps the invariant; there is one lemma for each step of a reload.
* `inv_start`: a server that was started meets it.
-/

namespace WebServer
namespace Core

open Config Act

/-! ## The invariant -/

def Server.addedOf (s : Server) (protocol : Protocol) : List Nat :=
  match s.prepared with
  | none => []
  | some p => (p.table protocol).added

/-- The listeners of one protocol that somebody holds. -/
def Server.holds (s : Server) (protocol : Protocol) : List Nat :=
  (s.table protocol).ids ++ s.addedOf protocol

def pendingPorts (rounds : List (Protocol × Nat)) (protocol : Protocol) : List Nat :=
  (rounds.filter fun r => r.1 == protocol).map Prod.snd

structure PreparedOk (s : Server) (rounds : Option (List (Protocol × Nat))) (p : PreparedReload) :
    Prop where
  started : p.serverStarted = true
  wanted : ∀ rs, rounds = some rs → ∀ r ∈ rs, r.2 ∈ ports p.next r.1
  filling : ∀ rs, rounds = some rs → ∀ protocol,
    Filling (s.table protocol) (ports p.next protocol) (pendingPorts rs protocol) (p.table protocol)
  filled : rounds = none → ∀ protocol,
    Filled (s.table protocol) (ports p.next protocol) (p.table protocol)

/-- The listeners of the server are where they belong. -/
structure Layout (s : Server) (rounds : Option (List (Protocol × Nat))) : Prop where
  started : s.started = true
  ids : ∀ (i : Nat) (l : Listener), s.listeners[i]? = some l → l.id = i
  bound : ∀ protocol, ∀ i ∈ s.holds protocol, ∃ l, s.listeners[i]? = some l ∧ l.protocol = protocol
  nodup : ∀ protocol, (s.holds protocol).Nodup
  activePorts : ∀ protocol, ActivePorts (s.table protocol) (ports s.runtime protocol)
  locked : s.controlLocked = s.prepared.isSome
  unprepared : s.prepared = none → rounds = none
  prepared : ∀ p, s.prepared = some p → PreparedOk s rounds p

/-- Each listener is in the stage that its place asks for. -/
structure Parties (s : Server) (party : Nat → Party) : Prop where
  leaving : ∀ protocol, ∀ i ∈ (s.table protocol).retired, (party i).Leaving
  present : ∀ protocol, ∀ i, i ∈ (s.table protocol).active.map Prod.snd ∨ i ∈ s.addedOf protocol →
    (party i).Serving
  absent : ∀ i, (∀ protocol, i ∉ s.holds protocol) → (party i).Serving ∨ (party i).Gone
  unborn : ∀ i, s.listeners.length ≤ i → (party i).Serving
  flagged : ∀ l ∈ s.listeners, l.retired = true →
    l.id ∈ (s.table l.protocol).retired ∨ (party l.id).Gone

structure Inv (s : Listening) : Prop where
  layout : Layout s.server s.rounds
  parties : Parties s.server s.party

section Layout

variable {s s' : Server} {rounds : Option (List (Protocol × Nat))} {party : Nat → Party}

theorem mem_holds {i : Nat} {protocol : Protocol} :
    i ∈ s.holds protocol ↔
      (i ∈ (s.table protocol).active.map Prod.snd ∨ i ∈ s.addedOf protocol) ∨
        i ∈ (s.table protocol).retired := by
  simp only [Server.holds, ListenerTable.ids, List.mem_append]
  tauto

theorem Layout.ids_lt (h : Layout s rounds) : ∀ l ∈ s.listeners, l.id < s.listeners.length := by
  intro l hl
  obtain ⟨i, hi, rfl⟩ := List.getElem_of_mem hl
  rw [h.ids i _ (List.getElem?_eq_getElem hi)]
  exact hi

theorem Layout.prepared_none (h : Layout s rounds) (hlocked : s.controlLocked = false) :
    s.prepared = none := by
  have hsome := h.locked
  rw [hlocked] at hsome
  exact Option.isNone_iff_eq_none.mp (by simpa using hsome.symm)

/-- A listener is held for its own protocol only. -/
theorem Layout.protocol_eq (h : Layout s rounds) {i : Nat} {protocol protocol' : Protocol}
    (hi : i ∈ s.holds protocol) (hi' : i ∈ s.holds protocol') : protocol = protocol' := by
  obtain ⟨l, hl, rfl⟩ := h.bound protocol i hi
  obtain ⟨l', hl', rfl⟩ := h.bound protocol' i hi'
  rw [hl] at hl'
  cases hl'
  rfl

theorem getElem?_tell (s : Server) (ids : List Nat) (request : Listener → Listener) (i : Nat) :
    (s.tell ids request).listeners[i]? =
      (s.listeners[i]?).map fun l => if l.id ∈ ids then request l else l := by
  simp [Server.tell]

/-- What one listener does on its executor. -/
theorem Parties.update (h : Parties s party) {i : Nat} {q : Party} (hq : (party i).Follows q) :
    Parties s (Function.update party i q) := by
  have hupdate : ∀ j, (party j).Follows (Function.update party i q j) := by
    intro j
    by_cases hj : j = i
    · subst hj
      rwa [Function.update_self]
    · rw [Function.update_of_ne hj]
      exact ⟨id, id, id⟩
  refine ⟨?_, ?_, ?_, ?_, ?_⟩
  · exact fun protocol j hj => (hupdate j).leaving (h.leaving protocol j hj)
  · exact fun protocol j hj => (hupdate j).serving (h.present protocol j hj)
  · exact fun j hj => (h.absent j hj).imp (hupdate j).serving (hupdate j).gone
  · exact fun j hj => (hupdate j).serving (h.unborn j hj)
  · exact fun l hl hretired => (h.flagged l hl hretired).imp id (hupdate l.id).gone

/-- The listeners that there were are still there, and none of them was told to retire. -/
structure Grows (s s' : Server) : Prop where
  kept : ∀ (i : Nat) (l : Listener), s.listeners[i]? = some l →
    ∃ l', s'.listeners[i]? = some l' ∧ l'.protocol = l.protocol
  ids : ∀ (i : Nat) (l : Listener), s'.listeners[i]? = some l → l.id = i
  unflagged : ∀ l' ∈ s'.listeners, l'.retired = true →
    ∃ l ∈ s.listeners, l.id = l'.id ∧ l.protocol = l'.protocol ∧ l.retired = true

theorem Layout.grows_refl (h : Layout s rounds) : Grows s s :=
  ⟨fun _ l hl => ⟨l, hl, rfl⟩, h.ids, fun l hl hretired => ⟨l, hl, rfl, rfl, hretired⟩⟩

theorem Grows.trans {s'' : Server} (h : Grows s s') (h' : Grows s' s'') : Grows s s'' where
  kept i l hl := by
    obtain ⟨l₁, hl₁, hp₁⟩ := h.kept i l hl
    obtain ⟨l₂, hl₂, hp₂⟩ := h'.kept i l₁ hl₁
    exact ⟨l₂, hl₂, hp₂.trans hp₁⟩
  ids := h'.ids
  unflagged l hl hretired := by
    obtain ⟨l₁, hl₁, hid₁, hp₁, hr₁⟩ := h'.unflagged l hl hretired
    obtain ⟨l₂, hl₂, hid₂, hp₂, hr₂⟩ := h.unflagged l₁ hl₁ hr₁
    exact ⟨l₂, hl₂, hid₂.trans hid₁, hp₂.trans hp₁, hr₂⟩

theorem grows_tell (hids : ∀ (i : Nat) (l : Listener), s.listeners[i]? = some l → l.id = i)
    (request : Listener → Listener) (hrequest : ∀ l, (request l).id = l.id ∧
      (request l).protocol = l.protocol ∧ (request l).retired = l.retired) (ids : List Nat) :
    Grows s (s.tell ids request) where
  kept i l hl := by
    rw [getElem?_tell, hl]
    refine ⟨if l.id ∈ ids then request l else l, rfl, ?_⟩
    split
    · exact (hrequest l).2.1
    · rfl
  ids i l hl := by
    rw [getElem?_tell, Option.map_eq_some_iff] at hl
    obtain ⟨l₀, hl₀, rfl⟩ := hl
    split
    · rw [(hrequest l₀).1]
      exact hids i l₀ hl₀
    · exact hids i l₀ hl₀
  unflagged l hl hretired := by
    obtain ⟨l₀, hl₀, rfl⟩ := List.mem_map.mp hl
    refine ⟨l₀, hl₀, ?_⟩
    by_cases hmem : l₀.id ∈ ids
    · rw [if_pos hmem] at hretired ⊢
      rw [(hrequest l₀).2.2] at hretired
      exact ⟨(hrequest l₀).1.symm, (hrequest l₀).2.1.symm, hretired⟩
    · rw [if_neg hmem] at hretired ⊢
      exact ⟨rfl, rfl, hretired⟩

theorem grows_append (hids : ∀ (i : Nat) (l : Listener), s.listeners[i]? = some l → l.id = i)
    {l : Listener} (hl : l.id = s.listeners.length) (hretired : l.retired = false) :
    Grows s (s.append l) where
  kept i l₀ hl₀ := by
    refine ⟨l₀, ?_, rfl⟩
    rw [Server.append, List.getElem?_append_left (List.getElem?_eq_some_iff.mp hl₀).1]
    exact hl₀
  ids i l₀ hl₀ := by
    simp only [Server.append, List.getElem?_append] at hl₀
    split at hl₀
    · exact hids i l₀ hl₀
    · rw [List.getElem?_singleton] at hl₀
      split at hl₀
      · cases hl₀
        omega
      · cases hl₀
  unflagged l₀ hl₀ hretired₀ := by
    rcases List.mem_append.mp hl₀ with hl₀ | hl₀
    · exact ⟨l₀, hl₀, rfl, rfl, hretired₀⟩
    · rw [List.mem_singleton.mp hl₀, hretired] at hretired₀
      cases hretired₀

theorem Grows.length_le (h : Grows s s') : s.listeners.length ≤ s'.listeners.length := by
  by_contra hlt
  obtain ⟨l', hl', -⟩ := h.kept s'.listeners.length _ (List.getElem?_eq_getElem (by omega))
  have := (List.getElem?_eq_some_iff.mp hl').1
  omega

/-- The maps are as they were; listeners may have been added or dropped. -/
theorem Parties.sameTables (h : Parties s party)
    (htable : ∀ protocol, s'.table protocol = s.table protocol)
    (hadded : ∀ protocol, ∀ i ∈ s'.addedOf protocol, (party i).Serving) (hgrows : Grows s s') :
    Parties s' party where
  leaving protocol i hi := h.leaving protocol i (htable protocol ▸ hi)
  present protocol i hi := by
    rcases hi with hi | hi
    · exact h.present protocol i (.inl (htable protocol ▸ hi))
    · exact hadded protocol i hi
  absent i hi := by
    by_cases hadd : ∃ protocol, i ∈ s.addedOf protocol
    · obtain ⟨protocol, hadd⟩ := hadd
      exact .inl (h.present protocol i (.inr hadd))
    · refine h.absent i fun protocol hmem => ?_
      rcases List.mem_append.mp hmem with hmem | hmem
      · exact hi protocol (List.mem_append.mpr (.inl (htable protocol ▸ hmem)))
      · exact hadd ⟨protocol, hmem⟩
  unborn i hi := h.unborn i (hgrows.length_le.trans hi)
  flagged l hl hretired := by
    obtain ⟨l₀, hl₀, hid, hprotocol, hretired₀⟩ := hgrows.unflagged l hl hretired
    rw [← hid, ← hprotocol, htable]
    exact h.flagged l₀ hl₀ hretired₀

/-- The maps and the snapshot are as they were, and no reload is under way. -/
theorem Layout.sameTables (h : Layout s rounds)
    (htable : ∀ protocol, s'.table protocol = s.table protocol) (hruntime : s'.runtime = s.runtime)
    (hstarted : s'.started = s.started) (hlocked : s'.controlLocked = false)
    (hprepared : s'.prepared = none) (hgrows : Grows s s') : Layout s' none where
  started := hstarted.trans h.started
  ids := hgrows.ids
  bound protocol i hi := by
    simp only [Server.holds, Server.addedOf, hprepared, List.append_nil, htable] at hi
    obtain ⟨l, hl, hp⟩ := h.bound protocol i (List.mem_append.mpr (.inl hi))
    obtain ⟨l', hl', hp'⟩ := hgrows.kept i l hl
    exact ⟨l', hl', hp'.trans hp⟩
  nodup protocol := by
    simp only [Server.holds, Server.addedOf, hprepared, List.append_nil, htable]
    exact (h.nodup protocol).of_append_left
  activePorts protocol := by
    rw [htable, hruntime]
    exact h.activePorts protocol
  locked := by rw [hlocked, hprepared]; rfl
  unprepared _ := rfl
  prepared p hp := by rw [hprepared] at hp; cases hp

/-- A reload is dropped, perhaps after one more listener was bound. -/
theorem inv_destroy (h : Layout s rounds) (hparties : Parties s party) (hgrows : Grows s s')
    (htable : ∀ protocol, s'.table protocol = s.table protocol) (hruntime : s'.runtime = s.runtime)
    (hstarted : s'.started = s.started) {p : PreparedReload} (hp : s'.prepared = some p) :
    Layout (destroyPrepared s') none ∧ Parties (destroyPrepared s') party := by
  have hs : destroyPrepared s' = { s'.tell p.added Listener.stop with
      controlLocked := false, prepared := none } := by
    simp only [destroyPrepared, hp]
  have hdestroyed : Grows s' (destroyPrepared s') := by
    have hstop := grows_tell hgrows.ids Listener.stop (fun _ => ⟨rfl, rfl, rfl⟩) p.added
    rw [hs]
    exact ⟨hstop.kept, hstop.ids, hstop.unflagged⟩
  have htables : ∀ protocol, (destroyPrepared s').table protocol = s.table protocol := by
    intro protocol
    rw [← htable, hs]
    cases protocol <;> rfl
  have hnone : (destroyPrepared s').prepared = none := by rw [hs]
  refine ⟨h.sameTables htables ?_ ?_ ?_ hnone (hgrows.trans hdestroyed),
    hparties.sameTables htables ?_ (hgrows.trans hdestroyed)⟩
  · rw [← hruntime, hs]
    rfl
  · rw [← hstarted, hs]
    rfl
  · rw [hs]
  · intro protocol i hi
    rw [Server.addedOf, hnone] at hi
    cases hi

theorem mem_pendingPorts {rs : List (Protocol × Nat)} {protocol : Protocol} {port : Nat} :
    port ∈ pendingPorts rs protocol ↔ (protocol, port) ∈ rs := by
  simp only [pendingPorts, List.mem_map, List.mem_filter, beq_iff_eq]
  constructor
  · rintro ⟨r, ⟨hr, rfl⟩, rfl⟩
    exact hr
  · intro hr
    exact ⟨_, ⟨hr, rfl⟩, rfl⟩

theorem mem_roundsOf {next : RuntimeConfig} {r : Protocol × Nat} :
    r ∈ roundsOf next ↔ r.2 ∈ ports next r.1 := by
  obtain ⟨protocol, port⟩ := r
  cases protocol <;> simp [roundsOf, ports]

theorem pendingPorts_cons (protocol : Protocol) (port : Nat) (rs : List (Protocol × Nat)) :
    pendingPorts ((protocol, port) :: rs) protocol = port :: pendingPorts rs protocol := by
  simp [pendingPorts]

theorem pendingPorts_cons_of_ne {protocol protocol' : Protocol} (h : protocol' ≠ protocol)
    (port : Nat) (rs : List (Protocol × Nat)) :
    pendingPorts ((protocol, port) :: rs) protocol' = pendingPorts rs protocol' := by
  simp [pendingPorts, h.symm]

/-- The first step of a reload. -/
theorem inv_opened (h : Layout s rounds) (hparties : Parties s party) (hnone : s.prepared = none)
    (next : RuntimeConfig) (spec : RuntimeConfigSpec) :
    Layout (s.opened next spec) (some (roundsOf next)) ∧ Parties (s.opened next spec) party := by
  have htable : ∀ protocol, (s.opened next spec).table protocol = s.table protocol := by
    intro protocol
    cases protocol <;> rfl
  have hadded : ∀ protocol, (s.opened next spec).addedOf protocol = [] := by
    intro protocol
    cases protocol <;> rfl
  have hholds : ∀ protocol, (s.opened next spec).holds protocol = s.holds protocol := by
    intro protocol
    rw [Server.holds, Server.holds, htable, hadded, Server.addedOf, hnone]
  have hgrows : Grows s (s.opened next spec) :=
    ⟨h.grows_refl.kept, h.grows_refl.ids, h.grows_refl.unflagged⟩
  refine ⟨⟨h.started, h.ids, ?_, ?_, ?_, rfl, (fun hp => by cases hp), ?_⟩,
    hparties.sameTables htable (fun protocol i hi => ?_) hgrows⟩
  · intro protocol i hi
    exact h.bound protocol i (hholds protocol ▸ hi)
  · intro protocol
    rw [hholds]
    exact h.nodup protocol
  · intro protocol
    rw [htable]
    exact h.activePorts protocol
  · intro p hp
    obtain rfl := Option.some.inj hp
    refine ⟨rfl, ?_, ?_, fun hr => by cases hr⟩
    · rintro rs hrs r hr
      obtain rfl := Option.some.inj hrs
      exact mem_roundsOf.mp hr
    · rintro rs hrs protocol
      obtain rfl := Option.some.inj hrs
      have hcovered : ∀ port ∈ ports next protocol, port ∈ pendingPorts (roundsOf next) protocol :=
        fun port hport => mem_pendingPorts.mpr (mem_roundsOf.mpr hport)
      have hnodup := (h.activePorts protocol).nodup
      cases protocol with
      | http => exact ⟨⟨[], by simp [PreparedReload.table, Server.table, Server.opened]⟩, hnodup,
          fun port hport => .inl (hcovered port hport), rfl, rfl⟩
      | https => exact ⟨⟨[], by simp [PreparedReload.table, Server.table, Server.opened]⟩, hnodup,
          fun port hport => .inl (hcovered port hport), rfl, rfl⟩
  · rw [hadded] at hi
    cases hi

/-- A round whose port is served already. -/
theorem inv_skipRound {protocol : Protocol} {port : Nat} {rs : List (Protocol × Nat)}
    {p : PreparedReload} (h : Layout s (some ((protocol, port) :: rs))) (hp : s.prepared = some p)
    (hport : s.hasFinal protocol port = true) : Layout s (some rs) := by
  have hok := h.prepared p hp
  refine ⟨h.started, h.ids, h.bound, h.nodup, h.activePorts, h.locked, ?_, ?_⟩
  · intro hnone
    rw [hp] at hnone
    cases hnone
  · intro p' hp'
    rw [hp] at hp'
    cases hp'
    refine ⟨hok.started, ?_, ?_, fun hr => by cases hr⟩
    · intro rs' hrs r hr
      obtain rfl := Option.some.inj hrs
      exact hok.wanted _ rfl r (by simp [hr])
    · intro rs' hrs protocol'
      obtain rfl := Option.some.inj hrs
      have hfilling := hok.filling _ rfl protocol'
      by_cases heq : protocol' = protocol
      · subst heq
        rw [pendingPorts_cons] at hfilling
        refine hfilling.skip ?_
        simp only [Server.hasFinal, hp, Option.any_some, List.any_eq_true, beq_iff_eq] at hport
        obtain ⟨e, he, rfl⟩ := hport
        exact List.mem_map_of_mem he
      · rwa [pendingPorts_cons_of_ne heq] at hfilling

/-- The prepared object with one more listener in its map. -/
def PreparedReload.emplaced (p : PreparedReload) (protocol : Protocol) (port id : Nat) :
    PreparedReload :=
  p.setTable { p.table protocol with
    final := (p.table protocol).final ++ [(port, id)]
    added := (p.table protocol).added ++ [id] } protocol

theorem emplaced_table (p : PreparedReload) (protocol : Protocol) (port id : Nat) :
    (p.emplaced protocol port id).table protocol = { p.table protocol with
      final := (p.table protocol).final ++ [(port, id)]
      added := (p.table protocol).added ++ [id] } := by
  cases protocol <;> rfl

theorem emplaced_table_of_ne (p : PreparedReload) {protocol protocol' : Protocol}
    (h : protocol' ≠ protocol) (port id : Nat) :
    (p.emplaced protocol port id).table protocol' = p.table protocol' := by
  cases protocol <;> cases protocol' <;> first | rfl | exact absurd rfl h

theorem emplaced_next (p : PreparedReload) (protocol : Protocol) (port id : Nat) :
    (p.emplaced protocol port id).next = p.next ∧
      (p.emplaced protocol port id).serverStarted = p.serverStarted := by
  cases protocol <;> exact ⟨rfl, rfl⟩

theorem prepared_emplaceFinal {p : PreparedReload} (hp : s.prepared = some p) (protocol : Protocol)
    (port revision : Nat) :
    (emplaceFinal protocol port s.listeners.length (s.grown protocol port revision)).prepared =
      some (p.emplaced protocol port s.listeners.length) := by
  simp only [emplaceFinal, Server.grown, Server.modifyPrepared, Server.append, hp, Option.map_some]
  cases protocol <;> rfl

theorem grows_grown (h : Layout s rounds) (protocol : Protocol) (port revision : Nat) :
    Grows s (s.grown protocol port revision) := by
  have happend := grows_append h.ids (l := Listener.start revision
    { id := s.listeners.length, protocol := protocol, port := port }) rfl rfl
  exact ⟨happend.kept, happend.ids, happend.unflagged⟩

/-- A round that binds a port. -/
theorem inv_addRound {protocol : Protocol} {port : Nat} (revision : Nat)
    {rs : List (Protocol × Nat)} {p : PreparedReload} (h : Layout s (some ((protocol, port) :: rs)))
    (hparties : Parties s party) (hp : s.prepared = some p)
    (hport : s.hasFinal protocol port = false) :
    Layout (emplaceFinal protocol port s.listeners.length (s.grown protocol port revision))
        (some rs) ∧
      Parties (emplaceFinal protocol port s.listeners.length (s.grown protocol port revision))
        party := by
  set s' := emplaceFinal protocol port s.listeners.length (s.grown protocol port revision) with hs'
  have hok := h.prepared p hp
  have hp' : s'.prepared = some (p.emplaced protocol port s.listeners.length) :=
    prepared_emplaceFinal hp protocol port revision
  have hgrown := grows_grown h protocol port revision
  have hgrows : Grows s s' := ⟨hgrown.kept, hgrown.ids, hgrown.unflagged⟩
  have htable : ∀ protocol, s'.table protocol = s.table protocol := by
    intro protocol
    cases protocol <;> rfl
  have hself : s'.addedOf protocol = s.addedOf protocol ++ [s.listeners.length] := by
    simp only [Server.addedOf, hp', hp, emplaced_table]
  have hother : ∀ protocol', protocol' ≠ protocol → s'.addedOf protocol' = s.addedOf protocol' := by
    intro protocol' hne
    simp only [Server.addedOf, hp', hp, emplaced_table_of_ne p hne]
  have hlast : s'.listeners[s.listeners.length]? = some (Listener.start revision
      { id := s.listeners.length, protocol := protocol, port := port }) := by
    simp [hs', emplaceFinal, Server.grown, Server.append, Server.modifyPrepared]
  have hlt : ∀ protocol, ∀ i ∈ s.holds protocol, i < s.listeners.length := by
    intro protocol i hi
    obtain ⟨l, hl, -⟩ := h.bound protocol i hi
    exact (List.getElem?_eq_some_iff.mp hl).1
  refine ⟨⟨h.started, hgrows.ids, ?_, ?_, ?_, ?_, ?_, ?_⟩,
    hparties.sameTables htable (fun protocol' i hi => ?_) hgrows⟩
  · intro protocol' i hi
    have hold : i ∈ s.holds protocol' ∨ protocol' = protocol ∧ i = s.listeners.length := by
      by_cases hne : protocol' = protocol
      · subst hne
        rw [Server.holds, htable, hself, ← List.append_assoc, ← Server.holds] at hi
        exact (List.mem_append.mp hi).imp id fun hi => ⟨rfl, List.mem_singleton.mp hi⟩
      · rw [Server.holds, htable, hother protocol' hne] at hi
        exact .inl hi
    rcases hold with hold | ⟨rfl, rfl⟩
    · obtain ⟨l, hl, hprotocol⟩ := h.bound protocol' i hold
      obtain ⟨l', hl', hprotocol'⟩ := hgrows.kept i l hl
      exact ⟨l', hl', hprotocol'.trans hprotocol⟩
    · exact ⟨_, hlast, rfl⟩
  · intro protocol'
    by_cases hne : protocol' = protocol
    · subst hne
      rw [Server.holds, htable, hself, ← List.append_assoc, ← Server.holds]
      refine List.nodup_append.mpr ⟨h.nodup protocol', by simp, fun i hi j hj heq => ?_⟩
      rw [heq, List.mem_singleton.mp hj] at hi
      exact absurd (hlt protocol' _ hi) (Nat.lt_irrefl _)
    · rw [Server.holds, htable, hother protocol' hne]
      exact h.nodup protocol'
  · intro protocol'
    rw [htable]
    exact h.activePorts protocol'
  · have hlocked := h.locked
    rw [hp] at hlocked
    rw [hp']
    exact hlocked
  · intro hnone
    rw [hp'] at hnone
    cases hnone
  · intro p' hp''
    rw [hp'] at hp''
    obtain rfl := Option.some.inj hp''
    obtain ⟨hnext, hstarted⟩ := emplaced_next p protocol port s.listeners.length
    refine ⟨hstarted.trans hok.started, ?_, ?_, fun hr => by cases hr⟩
    · intro rs' hrs r hr
      obtain rfl := Option.some.inj hrs
      rw [hnext]
      exact hok.wanted _ rfl r (by simp [hr])
    · intro rs' hrs protocol'
      obtain rfl := Option.some.inj hrs
      have hfilling := hok.filling _ rfl protocol'
      rw [hnext, htable]
      by_cases heq : protocol' = protocol
      · subst heq
        rw [pendingPorts_cons] at hfilling
        rw [emplaced_table]
        refine hfilling.add (hok.wanted _ rfl (protocol', port) (by simp)) ?_
        intro hmem
        obtain ⟨e, he, rfl⟩ := List.mem_map.mp hmem
        have htrue : s.hasFinal protocol' e.1 = true := by
          simp only [Server.hasFinal, hp, Option.any_some, List.any_eq_true, beq_iff_eq]
          exact ⟨e, he, rfl⟩
        rw [hport] at htrue
        cases htrue
      · rw [emplaced_table_of_ne p heq]
        rwa [pendingPorts_cons_of_ne heq] at hfilling
  · by_cases hne : protocol' = protocol
    · subst hne
      rw [hself] at hi
      rcases List.mem_append.mp hi with hi | hi
      · exact hparties.present protocol' i (.inr hi)
      · rw [List.mem_singleton.mp hi]
        exact hparties.unborn _ (Nat.le_refl _)
    · rw [hother protocol' hne] at hi
      exact hparties.present protocol' i (.inr hi)

/-- `prepare_reload` returns. -/
theorem inv_finish {p : PreparedReload} (h : Layout s (some [])) (hparties : Parties s party)
    (hp : s.prepared = some p) :
    Layout (retireListeners s) none ∧ Parties (retireListeners s) party := by
  have hok := h.prepared p hp
  obtain ⟨p', hp', hnext, hstarted, hretired⟩ : ∃ p', (retireListeners s).prepared = some p' ∧
      p'.next = p.next ∧ p'.serverStarted = p.serverStarted ∧
      ∀ protocol, p'.table protocol = (p.table protocol).retireExcept (ports p.next protocol) := by
    refine ⟨{ p with
      http := p.http.retireExcept p.next.httpPorts
      tls := p.tls.retireExcept p.next.httpsPorts }, ?_, rfl, rfl, fun protocol => ?_⟩
    · simp only [retireListeners, Server.modifyPrepared, hp, Option.map_some]
    · cases protocol <;> rfl
  have htable : ∀ protocol, (retireListeners s).table protocol = s.table protocol := by
    intro protocol
    cases protocol <;> rfl
  have hadded : ∀ protocol, (retireListeners s).addedOf protocol = s.addedOf protocol := by
    intro protocol
    simp only [Server.addedOf, hp', hp, hretired, PreparedTable.retireExcept]
  have hholds : ∀ protocol, (retireListeners s).holds protocol = s.holds protocol := by
    intro protocol
    rw [Server.holds, Server.holds, htable, hadded]
  have hgrows : Grows s (retireListeners s) :=
    ⟨h.grows_refl.kept, h.grows_refl.ids, h.grows_refl.unflagged⟩
  refine ⟨⟨h.started, h.ids, ?_, ?_, ?_, ?_, fun _ => rfl, ?_⟩,
    hparties.sameTables htable (fun protocol i hi => ?_) hgrows⟩
  · intro protocol i hi
    exact h.bound protocol i (hholds protocol ▸ hi)
  · intro protocol
    rw [hholds]
    exact h.nodup protocol
  · intro protocol
    rw [htable]
    exact h.activePorts protocol
  · have hlocked := h.locked
    rw [hp] at hlocked
    rw [hp']
    exact hlocked
  · intro p'' hp''
    rw [hp'] at hp''
    obtain rfl := Option.some.inj hp''
    refine ⟨hstarted.trans hok.started, (fun rs hrs => by cases hrs), (fun rs hrs => by cases hrs), ?_⟩
    intro _ protocol
    rw [htable, hnext, hretired]
    exact ⟨p.table protocol, hok.filling [] rfl protocol, rfl⟩
  · rw [hadded] at hi
    exact hparties.present protocol i (.inr hi)

/-- The activation, as far as the listeners go. -/
theorem activate_eq {p : PreparedReload} (hp : s.prepared = some p) (hstarted : p.serverStarted = true) :
    (∀ protocol, (activate s).table protocol = (p.table protocol).table) ∧
      (activate s).runtime = p.next ∧ (activate s).prepared = none ∧
      (activate s).controlLocked = false ∧ (activate s).started = s.started ∧
      (activate s).listeners = s.listeners.map fun l =>
        if l.id ∈ p.http.retire ++ p.tls.retire then l.retire else l := by
  have hs : activate s =
      { swapTables p { s with limiter := updateAllLimits s.limiter p } with
        runtime := p.next
        controlLocked := false
        prepared := none } := by
    simp only [activate, hp, hstarted, if_true]
  rw [hs]
  refine ⟨fun protocol => ?_, rfl, rfl, rfl, rfl, rfl⟩
  cases protocol <;> rfl

theorem mem_retire_iff (p : PreparedReload) (i : Nat) :
    i ∈ p.http.retire ++ p.tls.retire ↔ ∃ protocol, i ∈ (p.table protocol).retire := by
  rw [List.mem_append]
  constructor
  · rintro (hi | hi)
    · exact ⟨.http, hi⟩
    · exact ⟨.https, hi⟩
  · rintro ⟨protocol, hi⟩
    cases protocol with
    | http => exact .inl hi
    | https => exact .inr hi

theorem layout_commit {p : PreparedReload} (h : Layout s none) (hp : s.prepared = some p) :
    Layout (activate s) none := by
  have hok := h.prepared p hp
  obtain ⟨htable, hruntime, hnone, hlocked, hstarted, hlisteners⟩ := activate_eq hp hok.started
  have hperm : ∀ protocol, ((activate s).holds protocol).Perm (s.holds protocol) := by
    intro protocol
    have hperm := (hok.filled rfl protocol).perm
    simp only [Server.holds, Server.addedOf, hnone, hp, htable, List.append_nil]
    exact hperm
  have hget : ∀ i : Nat, (activate s).listeners[i]? = (s.listeners[i]?).map fun l =>
      if l.id ∈ p.http.retire ++ p.tls.retire then l.retire else l := by
    intro i
    rw [hlisteners, List.getElem?_map]
  refine ⟨hstarted.trans h.started, ?_, ?_, ?_, ?_, by rw [hlocked, hnone]; rfl, fun _ => rfl, ?_⟩
  · intro i l hl
    rw [hget, Option.map_eq_some_iff] at hl
    obtain ⟨l₀, hl₀, rfl⟩ := hl
    split <;> exact h.ids i l₀ hl₀
  · intro protocol i hi
    obtain ⟨l, hl, hprotocol⟩ := h.bound protocol i ((hperm protocol).mem_iff.mp hi)
    rw [hget, hl]
    refine ⟨if l.id ∈ p.http.retire ++ p.tls.retire then l.retire else l, rfl, ?_⟩
    split <;> exact hprotocol
  · intro protocol
    exact (hperm protocol).nodup_iff.mpr (h.nodup protocol)
  · intro protocol
    rw [htable, hruntime]
    exact (hok.filled rfl protocol).activePorts
  · intro p' hp'
    rw [hnone] at hp'
    cases hp'

/-- A listener is in the map of a protocol or among its retired ones, never both. -/
theorem Layout.not_retired (h : Layout s rounds) {i : Nat} {protocol protocol' : Protocol}
    (hi : i ∈ (s.table protocol).active.map Prod.snd ∨ i ∈ s.addedOf protocol)
    (hi' : i ∈ (s.table protocol').retired) : False := by
  obtain rfl := h.protocol_eq (mem_holds.mpr (.inl hi)) (mem_holds.mpr (.inr hi'))
  have hnodup := h.nodup protocol
  rw [Server.holds, ListenerTable.ids, List.nodup_append, List.nodup_append] at hnodup
  rcases hi with hi | hi
  · exact hnodup.1.2.2 i hi i hi' rfl
  · exact hnodup.2.2 i (List.mem_append.mpr (.inr hi')) i hi rfl

theorem Layout.eq_of_id (h : Layout s rounds) {l l' : Listener} (hl : l ∈ s.listeners)
    (hl' : s.listeners[l.id]? = some l') : l' = l := by
  obtain ⟨i, hi, rfl⟩ := List.getElem_of_mem hl
  rw [h.ids i _ (List.getElem?_eq_getElem hi), List.getElem?_eq_getElem hi] at hl'
  exact (Option.some.inj hl').symm

theorem parties_commit {p : PreparedReload} (h : Layout s none) (hparties : Parties s party)
    (hp : s.prepared = some p) :
    Parties (activate s) fun i =>
      if i ∈ p.http.retire ++ p.tls.retire then { party i with retiring := (party i).retiring + 1 }
      else party i := by
  have hok := h.prepared p hp
  have hlayout := layout_commit h hp
  obtain ⟨htable, -, hnone, -, -, hlisteners⟩ := activate_eq hp hok.started
  have hretire : ∀ i ∈ p.http.retire ++ p.tls.retire, ∃ protocol,
      i ∈ (p.table protocol).retire ∧ i ∈ (s.table protocol).active.map Prod.snd ∧
        i ∈ ((activate s).table protocol).retired := by
    intro i hi
    obtain ⟨protocol, hi⟩ := (mem_retire_iff p i).mp hi
    obtain ⟨hsubset, hfinal⟩ := (hok.filled rfl protocol).retire_subset
    refine ⟨protocol, hi, hsubset i hi, ?_⟩
    rw [htable]
    change i ∈ (p.table protocol).finalRetired
    rw [hfinal]
    exact List.mem_append.mpr (.inr hi)
  have hholds : ∀ protocol i, i ∈ (activate s).holds protocol ↔ i ∈ s.holds protocol := by
    intro protocol i
    have hperm := (hok.filled rfl protocol).perm
    simp only [Server.holds, Server.addedOf, hnone, hp, htable, List.append_nil]
    exact hperm.mem_iff
  have hkept : ∀ protocol i, i ∈ (s.table protocol).retired →
      i ∉ p.http.retire ++ p.tls.retire ∧ i ∈ ((activate s).table protocol).retired := by
    intro protocol i hi
    obtain ⟨-, hfinal⟩ := (hok.filled rfl protocol).retire_subset
    refine ⟨fun hmem => ?_, ?_⟩
    · obtain ⟨protocol', -, hactive, -⟩ := hretire i hmem
      exact h.not_retired (.inl hactive) hi
    · rw [htable]
      change i ∈ (p.table protocol).finalRetired
      rw [hfinal]
      exact List.mem_append.mpr (.inl hi)
  refine ⟨?_, ?_, ?_, ?_, ?_⟩
  · intro protocol i hi
    rw [htable] at hi
    change i ∈ (p.table protocol).finalRetired at hi
    rw [(hok.filled rfl protocol).retire_subset.2] at hi
    rcases List.mem_append.mp hi with hi | hi
    · simp only [(hkept protocol i hi).1, if_false]
      exact hparties.leaving protocol i hi
    · have hmem := (mem_retire_iff p i).mpr ⟨protocol, hi⟩
      have hserving := hparties.present protocol i
        (.inl ((hok.filled rfl protocol).retire_subset.1 i hi))
      simp only [hmem, if_true]
      exact .told hserving.retired hserving.onDrained (by simp [hserving.retiring]) hserving.posted
        hserving.erased
  · intro protocol i hi
    have hnot : i ∉ p.http.retire ++ p.tls.retire := by
      intro hmem
      obtain ⟨protocol', -, -, hretired⟩ := hretire i hmem
      exact hlayout.not_retired hi hretired
    simp only [hnot, if_false]
    rcases mem_holds.mp ((hholds protocol i).mp (mem_holds.mpr (.inl hi))) with hold | hold
    · exact hparties.present protocol i hold
    · exact absurd (hkept protocol i hold).2 fun hretired => hlayout.not_retired hi hretired
  · intro i hi
    have hnot : i ∉ p.http.retire ++ p.tls.retire := by
      intro hmem
      obtain ⟨protocol, -, -, hretired⟩ := hretire i hmem
      exact hi protocol (mem_holds.mpr (.inr hretired))
    simp only [hnot, if_false]
    exact hparties.absent i fun protocol hmem => hi protocol ((hholds protocol i).mpr hmem)
  · intro i hi
    have hnot : i ∉ p.http.retire ++ p.tls.retire := by
      intro hmem
      obtain ⟨protocol, -, hactive, -⟩ := hretire i hmem
      obtain ⟨l, hl, -⟩ := h.bound protocol i (mem_holds.mpr (.inl (.inl hactive)))
      have hlt := (List.getElem?_eq_some_iff.mp hl).1
      rw [hlisteners, List.length_map] at hi
      omega
    simp only [hnot, if_false]
    rw [hlisteners, List.length_map] at hi
    exact hparties.unborn i hi
  · intro l hl hretired
    rw [hlisteners] at hl
    obtain ⟨l₀, hl₀, rfl⟩ := List.mem_map.mp hl
    by_cases hmem : l₀.id ∈ p.http.retire ++ p.tls.retire
    · rw [if_pos hmem]
      obtain ⟨protocol, -, hactive, hin⟩ := hretire l₀.id hmem
      obtain ⟨l, hl, rfl⟩ := h.bound protocol l₀.id (mem_holds.mpr (.inl (.inl hactive)))
      rw [h.eq_of_id hl₀ hl] at hin
      exact .inl hin
    · rw [if_neg hmem] at hretired ⊢
      rcases hparties.flagged l₀ hl₀ hretired with hin | hgone
      · exact .inl (hkept l₀.protocol l₀.id hin).2
      · simp only [hmem, if_false]
        exact .inr hgone

theorem onDrained_table (s : Server) (protocol : Protocol) (i : Nat) :
    (onDrained protocol i s).table protocol =
      { s.table protocol with retired := (s.table protocol).retired.filter (· != i) } := by
  cases protocol <;> rfl

theorem onDrained_table_of_ne (s : Server) {protocol protocol' : Protocol} (h : protocol' ≠ protocol)
    (i : Nat) : (onDrained protocol i s).table protocol' = s.table protocol' := by
  cases protocol <;> cases protocol' <;> first | rfl | exact absurd rfl h

theorem onDrained_frame (s : Server) (protocol : Protocol) (i : Nat) :
    (onDrained protocol i s).listeners = s.listeners ∧ (onDrained protocol i s).runtime = s.runtime ∧
      (onDrained protocol i s).prepared = s.prepared ∧
      (onDrained protocol i s).controlLocked = s.controlLocked ∧
      (onDrained protocol i s).started = s.started := by
  cases protocol <;> exact ⟨rfl, rfl, rfl, rfl, rfl⟩

/-- Where there is a posted handler, the listener is among the retired ones and has drained. -/
theorem Parties.posted_drained (h : Layout s rounds) (hparties : Parties s party) {i : Nat}
    {l : Listener} (hl : s.listeners[i]? = some l) (hposted : 0 < (party i).posted) :
    i ∈ (s.table l.protocol).retired := by
  by_cases hholds : ∃ protocol, i ∈ s.holds protocol
  · obtain ⟨protocol, hi⟩ := hholds
    obtain ⟨l', hl', rfl⟩ := h.bound protocol i hi
    rw [hl] at hl'
    cases hl'
    rcases mem_holds.mp hi with hi | hi
    · rw [(hparties.present _ i hi).posted] at hposted
      cases hposted
    · exact hi
  · rcases hparties.absent i fun protocol hi => hholds ⟨protocol, hi⟩ with hq | hq
    · rw [hq.posted] at hposted
      cases hposted
    · rw [hq.posted] at hposted
      cases hposted

theorem count_retired (h : Layout s rounds) {i : Nat} {protocol : Protocol}
    (hi : i ∈ (s.table protocol).retired) : (s.table protocol).retired.count i = 1 := by
  refine List.count_eq_one_of_mem ?_ hi
  have hnodup := h.nodup protocol
  rw [Server.holds, ListenerTable.ids] at hnodup
  exact hnodup.of_append_left.of_append_right

theorem inv_drained (h : Layout s rounds) (hparties : Parties s party)
    (hlocked : s.controlLocked = false) {i : Nat} {l : Listener} (hl : s.listeners[i]? = some l)
    (hposted : 0 < (party i).posted) :
    Layout (onDrained l.protocol i s) rounds ∧
      Parties (onDrained l.protocol i s) (Function.update party i { party i with
        posted := (party i).posted - 1
        erased := (party i).erased + (s.table l.protocol).retired.count i }) := by
  have hin := hparties.posted_drained h hl hposted
  obtain ⟨hlisteners, hruntime, hprepared, hlock, hstarted⟩ := onDrained_frame s l.protocol i
  have hnone := h.prepared_none hlocked
  have hadded : ∀ protocol, (onDrained l.protocol i s).addedOf protocol = s.addedOf protocol := by
    intro protocol
    rw [Server.addedOf, Server.addedOf, hprepared]
  have hactive : ∀ protocol, ((onDrained l.protocol i s).table protocol).active =
      (s.table protocol).active := by
    intro protocol
    by_cases hne : protocol = l.protocol
    · rw [hne, onDrained_table]
    · rw [onDrained_table_of_ne s hne]
  have hretired : ∀ protocol j, j ∈ ((onDrained l.protocol i s).table protocol).retired ↔
      j ∈ (s.table protocol).retired ∧ j ≠ i := by
    intro protocol j
    by_cases hne : protocol = l.protocol
    · rw [hne, onDrained_table]
      simp
    · rw [onDrained_table_of_ne s hne]
      refine ⟨fun hj => ⟨hj, ?_⟩, And.left⟩
      rintro rfl
      exact hne (h.protocol_eq (mem_holds.mpr (.inr hj)) (mem_holds.mpr (.inr hin)))
  have hsublist : ∀ protocol, ((onDrained l.protocol i s).holds protocol).Sublist
      (s.holds protocol) := by
    intro protocol
    by_cases hne : protocol = l.protocol
    · rw [hne, Server.holds, Server.holds, onDrained_table, hadded, ListenerTable.ids,
        ListenerTable.ids]
      exact ((List.filter_sublist).append_left _).append_right _
    · rw [Server.holds, Server.holds, onDrained_table_of_ne s hne, hadded]
  have hgone : Party.Gone { party i with
      posted := (party i).posted - 1
      erased := (party i).erased + (s.table l.protocol).retired.count i } := by
    rw [count_retired h hin]
    cases hparties.leaving l.protocol i hin with
    | told _ _ _ hzero => rw [hzero] at hposted; cases hposted
    | draining _ _ _ hzero => rw [hzero] at hposted; cases hposted
    | drained hr hd hretiring hone herased haccepting hsessions =>
      exact ⟨hr, hd, hretiring, by simp [hone], by simp [herased], haccepting, hsessions⟩
  refine ⟨⟨hstarted.trans h.started, ?_, ?_, ?_, ?_, ?_, ?_, ?_⟩, ?_, ?_, ?_, ?_, ?_⟩
  · rw [hlisteners]
    exact h.ids
  · intro protocol j hj
    rw [hlisteners]
    exact h.bound protocol j ((hsublist protocol).subset hj)
  · exact fun protocol => (h.nodup protocol).sublist (hsublist protocol)
  · intro protocol
    have hports := h.activePorts protocol
    rw [hruntime]
    exact ⟨by rw [hactive]; exact hports.nodup, by rw [hactive]; exact hports.mem_iff⟩
  · rw [hlock, hprepared]
    exact h.locked
  · rw [hprepared]
    exact h.unprepared
  · intro p hp
    rw [hprepared, hnone] at hp
    cases hp
  · intro protocol j hj
    obtain ⟨hj, hne⟩ := (hretired protocol j).mp hj
    rw [Function.update_of_ne hne]
    exact hparties.leaving protocol j hj
  · intro protocol j hj
    rw [hactive, hadded] at hj
    have hne : j ≠ i := by
      rintro rfl
      exact h.not_retired hj hin
    rw [Function.update_of_ne hne]
    exact hparties.present protocol j hj
  · intro j hj
    by_cases hne : j = i
    · rw [hne, Function.update_self]
      exact .inr hgone
    · rw [Function.update_of_ne hne]
      refine hparties.absent j fun protocol hmem => hj protocol ?_
      rw [mem_holds, hactive, hadded, hretired]
      exact (mem_holds.mp hmem).imp id fun hmem => ⟨hmem, hne⟩
  · intro j hj
    rw [hlisteners] at hj
    have hne : j ≠ i := by
      rintro rfl
      have := (List.getElem?_eq_some_iff.mp hl).1
      omega
    rw [Function.update_of_ne hne]
    exact hparties.unborn j hj
  · intro l' hl' hflag
    rw [hlisteners] at hl'
    by_cases hne : l'.id = i
    · rw [hne, Function.update_self]
      exact .inr hgone
    · rw [Function.update_of_ne hne, hretired]
      exact (hparties.flagged l' hl' hflag).imp (fun hmem => ⟨hmem, hne⟩) id

end Layout

/-! ## Steps -/

section Steps

variable {chk : Checks} {s s' : Listening}

theorem Inv.setParty (h : Inv s) {i : Nat} {q : Party} (hq : (s.party i).Follows q) :
    Inv (s.setParty i q) := ⟨h.layout, h.parties.update hq⟩

theorem Inv.onAccept (h : Inv s) (l : Listener) : Inv (onAccept s l) := by
  unfold Core.onAccept
  refine h.setParty ?_
  split
  · exact Party.notifyIfDrained_follows _
  · rename_i hopen
    simp only [Bool.or_eq_true, not_or, Bool.not_eq_true] at hopen
    exact Party.accepting_follows hopen.2

theorem Inv.onGate (h : Inv s) {l : Listener} (haccepting : (s.party l.id).accepting = true)
    (admission : Admission) : Inv (onGate s l admission) := by
  unfold Core.onGate
  refine h.setParty ?_
  split
  · exact Party.accepted_follows haccepting _ _
  · cases admission <;> exact Party.accepted_follows haccepting _ _

theorem Inv.round {protocol : Protocol} {port : Nat} {rest : List (Protocol × Nat)}
    {p : PreparedReload} (h : Inv s) (hrounds : s.rounds = some ((protocol, port) :: rest))
    (hp : s.server.prepared = some p) (env : Network) :
    match addListener env protocol p.next.revision port s.server with
    | .ok _ server => Inv { s with server := server, rounds := some rest }
    | .error _ server => Inv { s with server := destroyPrepared server, rounds := none } := by
  have hlayout := h.layout
  rw [hrounds] at hlayout
  rw [addListener_eq hlayout.ids_lt]
  by_cases hfinal : s.server.hasFinal protocol port = true
  · rw [if_pos hfinal]
    exact ⟨inv_skipRound hlayout hp hfinal, h.parties⟩
  · rw [if_neg hfinal]
    have hfinal : s.server.hasFinal protocol port = false := by simpa using hfinal
    cases env.bind protocol port with
    | some e =>
      have hdestroyed := inv_destroy hlayout h.parties hlayout.grows_refl (fun _ => rfl) rfl rfl hp
      exact ⟨hdestroyed.1, hdestroyed.2⟩
    | none =>
      cases env.start protocol port with
      | some e =>
        have hgrown : (s.server.grown protocol port p.next.revision).prepared =
            some (p.own protocol s.server.listeners.length) := by
          simp only [Server.grown, Server.modifyPrepared, Server.append, hp, Option.map_some]
        have hdestroyed := inv_destroy hlayout h.parties
          (grows_grown hlayout protocol port p.next.revision)
          (fun protocol => by cases protocol <;> rfl) rfl rfl hgrown
        exact ⟨hdestroyed.1, hdestroyed.2⟩
      | none =>
        have hadded := inv_addRound p.next.revision hlayout h.parties hp hfinal
        exact ⟨hadded.1, hadded.2⟩

/-- Every event keeps the invariant. -/
theorem inv_step {e : Event} (h : Inv s) (hs : step chk s e = some s') : Inv s' := by
  cases e with
  | prepare env spec =>
    simp only [step] at hs
    split at hs
    · cases hs
    · rename_i hlock
      have hlock : s.server.controlLocked = false := by simpa using hlock
      have hnone := h.layout.prepared_none hlock
      split at hs
      · rename_i next server hbegin
        obtain ⟨-, rfl⟩ := beginReload_ok hlock hnone h.layout.started hbegin
        have hopened := inv_opened h.layout h.parties hnone next spec
        cases hs
        have hstarted : (s.server.opened next spec).started = true := h.layout.started
        rw [hstarted]
        exact ⟨hopened.1, hopened.2⟩
      · rename_i e server hbegin
        obtain rfl := beginReload_error hlock hnone h.layout.started hbegin
        cases hs
        exact h
  | round env =>
    simp only [step] at hs
    split at hs
    · rename_i protocol port rest p hrounds hp
      have hround := h.round hrounds hp env
      split at hs
      · rename_i hadd
        rw [hadd] at hround
        cases hs
        exact hround
      · rename_i hadd
        rw [hadd] at hround
        cases hs
        exact hround
    · cases hs
  | finish =>
    simp only [step] at hs
    split at hs
    · rename_i hrounds
      cases hs
      rw [h.layout.started]
      have hlayout := h.layout
      rw [hrounds] at hlayout
      cases hp : s.server.prepared with
      | none =>
        have := hlayout.unprepared hp
        cases this
      | some p =>
        have hfinish := inv_finish hlayout h.parties hp
        exact ⟨hfinish.1, hfinish.2⟩
    · cases hs
  | commit =>
    simp only [step] at hs
    split at hs
    · rename_i p hrounds hp
      cases hs
      have hlayout := h.layout
      rw [hrounds] at hlayout
      have hstarted := (hlayout.prepared p hp).started
      simp only [commitStep, hstarted, if_true]
      refine ⟨?_, parties_commit hlayout h.parties hp⟩
      have hcommit := layout_commit hlayout hp
      rw [← hrounds] at hcommit
      exact hcommit
    · cases hs
  | drop =>
    simp only [step] at hs
    split at hs
    · rename_i p hrounds hp
      cases hs
      have hdestroyed := inv_destroy h.layout h.parties h.layout.grows_refl (fun _ => rfl) rfl rfl hp
      refine ⟨?_, hdestroyed.2⟩
      have hlayout := hdestroyed.1
      rw [← hrounds] at hlayout
      exact hlayout
    · cases hs
  | accept id =>
    simp only [step] at hs
    split_ifs at hs
    obtain ⟨l, -, rfl⟩ := Option.map_eq_some_iff.mp hs
    exact h.onAccept l
  | gate id admission =>
    simp only [step] at hs
    split_ifs at hs with haccepting
    obtain ⟨l, hl, rfl⟩ := Option.map_eq_some_iff.mp hs
    obtain rfl := h.layout.ids id l hl
    exact h.onGate haccepting admission
  | acceptFailed id =>
    simp only [step] at hs
    split_ifs at hs
    cases hs
    exact h.setParty (Party.notifyIfDrained_follows _)
  | closeSession id session =>
    simp only [step] at hs
    split_ifs at hs with hsession
    cases hs
    exact h.setParty (Party.closeSession_follows hsession.1)
  | retireOnExecutor id =>
    simp only [step] at hs
    split_ifs at hs with hretiring
    cases hs
    exact h.setParty (Party.retireOnExecutor_follows hretiring.1 hretiring.2)
  | drained id =>
    simp only [step] at hs
    split_ifs at hs with hposted
    obtain ⟨l, hl, rfl⟩ := Option.map_eq_some_iff.mp hs
    obtain rfl := h.layout.ids id l hl
    have hdrained := inv_drained h.layout h.parties hposted.2 hl hposted.1
    exact ⟨hdrained.1, hdrained.2⟩

end Steps

/-! ## The start -/

section Start

variable {s s' : Server} {env : Network}

theorem sortedPorts_nodup (list : List Nat) : (sortedPorts list).Nodup :=
  (List.perm_insertionSort _ _).nodup_iff.mpr list.nodup_dedup

theorem ports_nodup {chk : Checks} {spec : RuntimeConfigSpec} {c : RuntimeConfig}
    (h : buildRuntimeConfig chk spec = .ok c) (protocol : Protocol) : (ports c protocol).Nodup := by
  simp only [buildRuntimeConfig] at h
  split at h
  · cases h
  · cases h
    cases protocol <;> exact sortedPorts_nodup _

/-- The listeners that are bound get the next ids. -/
theorem bindPorts_ok {protocol : Protocol} {list : List Nat} {table : List (Nat × Nat)}
    (hids : ∀ (i : Nat) (l : Listener), s.listeners[i]? = some l → l.id = i)
    (hnone : s.prepared = none) (h : bindPorts env protocol list s = .ok table s') :
    ∃ bound, s' = { s with listeners := s.listeners ++ bound } ∧
      table = bound.map (fun l => (l.port, l.id)) ∧ bound.map (·.port) = list ∧
      (∀ l ∈ bound, l.protocol = protocol ∧ l.retired = false) ∧
      ∀ (i : Nat) (l : Listener), s'.listeners[i]? = some l → l.id = i := by
  induction list generalizing s table with
  | nil =>
    cases h
    exact ⟨[], by simp, rfl, rfl, by simp, hids⟩
  | cons port list ih =>
    obtain ⟨id, s₁, hbind, h⟩ := bind_eq_ok h
    obtain ⟨rest, s₂, hrest, h⟩ := bind_eq_ok h
    cases h
    unfold bindListener at hbind
    split at hbind
    · cases hbind
    · cases hbind
      have happend := grows_append hids
        (l := { id := s.listeners.length, protocol := protocol, port := port }) rfl rfl
      have hsame : ∀ l, { s with listeners := s.listeners ++ [l] }.modifyPrepared
          (·.own protocol s.listeners.length) = s.append l := by
        intro l
        simp [Server.modifyPrepared, Server.append, hnone]
      rw [hsame] at hrest
      obtain ⟨bound, rfl, rfl, rfl, hbound, hids'⟩ := ih happend.ids hnone hrest
      refine ⟨{ id := s.listeners.length, protocol := protocol, port := port } :: bound, ?_, rfl,
        rfl, ?_, hids'⟩
      · simp [Server.append]
      · intro l hl
        rcases List.mem_cons.mp hl with rfl | hl
        · exact ⟨rfl, rfl⟩
        · exact hbound l hl

/-- Nothing else is changed when listeners are started. -/
def Started (s s' : Server) : Prop := s' = { s with listeners := s'.listeners } ∧ Grows s s'

theorem loop_startListener {s₁ : Server} {protocol : Protocol} {revision : Nat}
    {entries : List (Nat × Nat)} {u : Unit} (hs : Started s s₁)
    (h : loop (fun e : Nat × Nat => startListener env protocol e.1 revision e.2) entries s₁ =
      .ok u s') : Started s s' := by
  have hspec : Spec (Started s)
      (loop (fun e : Nat × Nat => startListener env protocol e.1 revision e.2) entries)
      (fun _ => Started s) fun _ => True := by
    refine spec_loop (fun e => ?_) entries
    refine spec_bind (M := fun _ => Started s) (spec_modify fun s₂ hs₂ => ?_) fun _ =>
      spec_failing (fun _ h => h) fun _ _ => trivial
    obtain ⟨hframe, hgrows⟩ := hs₂
    refine ⟨by rw [Server.tell, hframe], hgrows.trans ?_⟩
    exact grows_tell hgrows.ids (Listener.start revision) (fun _ => ⟨rfl, rfl, rfl⟩) [e.2]
  have hrun := hspec s₁ hs
  rw [h] at hrun
  exact hrun

theorem ids_nodup (hids : ∀ (i : Nat) (l : Listener), s.listeners[i]? = some l → l.id = i) :
    (s.listeners.map (·.id)).Nodup := by
  rw [List.nodup_iff_getElem?_ne_getElem?]
  intro i j hij hj
  rw [List.length_map] at hj
  rw [List.getElem?_map, List.getElem?_map, List.getElem?_eq_getElem (hij.trans hj),
    List.getElem?_eq_getElem hj, Option.map_some, Option.map_some, ne_eq, Option.some.injEq,
    hids i _ (List.getElem?_eq_getElem (hij.trans hj)), hids j _ (List.getElem?_eq_getElem hj)]
  omega

/-- A server whose `start` has bound these listeners. -/
def Server.boundWith (c : RuntimeConfig) (http tls : List Listener) : Server :=
  { Server.constructed c with
    started := true
    listeners := http ++ tls
    http := ⟨http.map fun l => (l.port, l.id), []⟩
    tls := ⟨tls.map fun l => (l.port, l.id), []⟩ }

section Bound

variable {c : RuntimeConfig} {http tls : List Listener}

structure BoundFor (c : RuntimeConfig) (http tls : List Listener) : Prop where
  httpPorts : http.map (·.port) = c.httpPorts
  httpsPorts : tls.map (·.port) = c.httpsPorts
  httpListeners : ∀ l ∈ http, l.protocol = .http ∧ l.retired = false
  tlsListeners : ∀ l ∈ tls, l.protocol = .https ∧ l.retired = false
  ids : ∀ (i : Nat) (l : Listener), (http ++ tls)[i]? = some l → l.id = i

theorem startServer_ok {u : Unit} (h : startServer env (Server.constructed c) = .ok u s) :
    ∃ http tls, BoundFor c http tls ∧ Started (Server.boundWith c http tls) s := by
  obtain ⟨⟨⟩, s₁, hrefuse, h⟩ := bind_eq_ok h
  cases hrefuse
  have h := guarded_eq_ok h
  obtain ⟨⟨⟩, s₂, haddress, h⟩ := bind_eq_ok h
  obtain rfl := failing_eq_ok haddress
  obtain ⟨_, _, hget, h⟩ := bind_eq_ok h
  cases hget
  obtain ⟨_, s₃, hhttp, h⟩ := bind_eq_ok h
  obtain ⟨http, rfl, rfl, hhttp, hprotocol, hids⟩ :=
    bindPorts_ok (by simp [Server.constructed]) rfl hhttp
  obtain ⟨_, s₄, htls, h⟩ := bind_eq_ok h
  obtain ⟨tls, rfl, rfl, htls, hprotocol', hids⟩ := bindPorts_ok hids rfl htls
  obtain ⟨⟨⟩, s₅, hmodify, h⟩ := bind_eq_ok h
  cases hmodify
  obtain ⟨⟨⟩, s₆, hloop, h⟩ := bind_eq_ok h
  have hrefl : Started (Server.boundWith c http tls) (Server.boundWith c http tls) :=
    ⟨rfl, fun _ l hl => ⟨l, hl, rfl⟩, hids, fun l hl hretired => ⟨l, hl, rfl, rfl, hretired⟩⟩
  exact ⟨http, tls, ⟨hhttp, htls, hprotocol, hprotocol', hids⟩,
    loop_startListener (loop_startListener hrefl hloop) h⟩

theorem holds_boundWith (protocol : Protocol) :
    (Server.boundWith c http tls).holds protocol = match protocol with
      | .http => http.map (·.id)
      | .https => tls.map (·.id) := by
  cases protocol <;>
    simp [Server.boundWith, Server.holds, Server.table, Server.addedOf, ListenerTable.ids,
      Server.constructed]

theorem layout_boundWith (hports : ∀ protocol, (ports c protocol).Nodup)
    (h : BoundFor c http tls) : Layout (Server.boundWith c http tls) none := by
  have hnodup := ids_nodup (s := Server.boundWith c http tls) h.ids
  rw [show (Server.boundWith c http tls).listeners = http ++ tls from rfl, List.map_append] at hnodup
  have hfound : ∀ l ∈ http ++ tls, (http ++ tls)[l.id]? = some l := by
    intro l hl
    obtain ⟨i, hi, rfl⟩ := List.getElem_of_mem hl
    rw [h.ids i _ (List.getElem?_eq_getElem hi)]
    exact List.getElem?_eq_getElem hi
  refine ⟨rfl, h.ids, ?_, ?_, ?_, rfl, fun _ => rfl, fun p hp => by cases hp⟩
  · intro protocol i hi
    rw [holds_boundWith] at hi
    cases protocol with
    | http =>
      obtain ⟨l, hl, rfl⟩ := List.mem_map.mp hi
      exact ⟨l, hfound l (by simp [hl]), (h.httpListeners l hl).1⟩
    | https =>
      obtain ⟨l, hl, rfl⟩ := List.mem_map.mp hi
      exact ⟨l, hfound l (by simp [hl]), (h.tlsListeners l hl).1⟩
  · intro protocol
    rw [holds_boundWith]
    cases protocol with
    | http => exact hnodup.of_append_left
    | https => exact hnodup.of_append_right
  · intro protocol
    have hnodup := hports protocol
    have hactive : ((Server.boundWith c http tls).table protocol).active.map Prod.fst =
        ports c protocol := by
      cases protocol with
      | http => exact (List.map_map).trans h.httpPorts
      | https => exact (List.map_map).trans h.httpsPorts
    rw [← hactive] at hnodup
    exact ⟨hnodup, fun port => by rw [hactive]; rfl⟩

/-- A server that has been started. -/
theorem inv_start {chk : Checks} {spec : RuntimeConfigSpec} {u : Unit}
    (hc : buildRuntimeConfig chk spec = .ok c)
    (h : startServer env (Server.constructed c) = .ok u s) : Inv { server := s } := by
  obtain ⟨http, tls, hbound, hframe, hgrows⟩ := startServer_ok h
  have hlayout := layout_boundWith (ports_nodup hc) hbound
  have hserving : Party.Serving {} := ⟨rfl, rfl, rfl, rfl, rfl⟩
  have htable : ∀ protocol, s.table protocol = (Server.boundWith c http tls).table protocol := by
    intro protocol
    rw [hframe]
    cases protocol <;> rfl
  refine ⟨hlayout.sameTables htable (by rw [hframe]) (by rw [hframe]) (by rw [hframe]; rfl)
    (by rw [hframe]; rfl) hgrows, ?_, fun _ _ _ => hserving, fun _ _ => .inl hserving,
    fun _ _ => hserving, ?_⟩
  · intro protocol i hi
    rw [htable] at hi
    cases protocol <;> cases hi
  · intro l hl hretired
    obtain ⟨l₀, hl₀, -, -, hretired₀⟩ := hgrows.unflagged l hl hretired
    rcases List.mem_append.mp hl₀ with hl₀ | hl₀
    · rw [(hbound.httpListeners l₀ hl₀).2] at hretired₀
      cases hretired₀
    · rw [(hbound.tlsListeners l₀ hl₀).2] at hretired₀
      cases hretired₀

end Bound

end Start

end Core
end WebServer
