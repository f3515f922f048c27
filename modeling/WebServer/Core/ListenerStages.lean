import WebServer.Core.Listeners

/-!
# WebServer.Core.ListenerStages

What the loops of `prepare_reload` prepare for one protocol, and the stages of a listener that is
taken out of service.

* `Filling`, `Filled`: the prepared maps, while the loops run and once they are done. What is swapped
  in has exactly the wanted ports (`Filled.activePorts`), keeps the listeners that stay
  (`Filled.kept`) and moves the others to the retired ones (`Filled.retired`).
* `Party.Serving`, `Leaving`, `Gone`: the stages. `Follows`: a handler of a listener keeps its stage,
  as far as others can tell.
-/

namespace WebServer
namespace Core

open Config Act

/-! ## Tables -/

section Tables

variable {t : ListenerTable} {wanted pending : List Nat} {q : PreparedTable}

/-- The map has these ports, each of them once. -/
structure ActivePorts (t : ListenerTable) (wanted : List Nat) : Prop where
  nodup : (t.active.map Prod.fst).Nodup
  mem_iff : ∀ port, port ∈ t.active.map Prod.fst ↔ port ∈ wanted

/-- The rounds for the ports in `pending` are still to come. -/
structure Filling (t : ListenerTable) (wanted pending : List Nat) (q : PreparedTable) : Prop where
  final : ∃ news, q.final = t.active ++ news ∧ q.added = news.map Prod.snd ∧
    ∀ e ∈ news, e.1 ∈ wanted
  nodup : (q.final.map Prod.fst).Nodup
  covered : ∀ port ∈ wanted, port ∈ pending ∨ port ∈ q.final.map Prod.fst
  finalRetired : q.finalRetired = t.retired
  retire : q.retire = []

/-- `prepare_reload` has returned. -/
def Filled (t : ListenerTable) (wanted : List Nat) (q : PreparedTable) : Prop :=
  ∃ q₀, Filling t wanted [] q₀ ∧ q = q₀.retireExcept wanted

def ListenerTable.ids (t : ListenerTable) : List Nat := t.active.map Prod.snd ++ t.retired

/-- What the activation swaps in. -/
def PreparedTable.table (q : PreparedTable) : ListenerTable := ⟨q.final, q.finalRetired⟩

theorem Filling.skip {port : Nat} {rest : List Nat} (h : Filling t wanted (port :: rest) q)
    (hport : port ∈ q.final.map Prod.fst) : Filling t wanted rest q where
  final := h.final
  nodup := h.nodup
  covered p hp := by
    rcases h.covered p hp with hp | hp
    · rcases List.mem_cons.mp hp with rfl | hp
      · exact .inr hport
      · exact .inl hp
    · exact .inr hp
  finalRetired := h.finalRetired
  retire := h.retire

theorem Filling.add {port id : Nat} {rest : List Nat} (h : Filling t wanted (port :: rest) q)
    (hwanted : port ∈ wanted) (hport : port ∉ q.final.map Prod.fst) :
    Filling t wanted rest { q with final := q.final ++ [(port, id)], added := q.added ++ [id] } where
  final := by
    obtain ⟨news, hfinal, hadded, hnews⟩ := h.final
    refine ⟨news ++ [(port, id)], by simp [hfinal], by simp [hadded], fun e he => ?_⟩
    rcases List.mem_append.mp he with he | he
    · exact hnews e he
    · rw [List.mem_singleton.mp he]
      exact hwanted
  nodup := by
    rw [List.map_append]
    refine List.nodup_append.mpr ⟨h.nodup, by simp, fun p hp p' hp' heq => ?_⟩
    rw [heq, List.mem_singleton.mp hp'] at hp
    exact hport hp
  covered p hp := by
    rw [List.map_append, List.mem_append]
    rcases h.covered p hp with hp | hp
    · rcases List.mem_cons.mp hp with rfl | hp
      · exact .inr (.inr (by simp))
      · exact .inl hp
    · exact .inr (.inl hp)
  finalRetired := h.finalRetired
  retire := h.retire

theorem Filled.activePorts (h : Filled t wanted q) : ActivePorts q.table wanted := by
  obtain ⟨q₀, h, rfl⟩ := h
  constructor
  · exact h.nodup.sublist (List.filter_sublist.map _)
  · intro port
    simp only [PreparedTable.table, PreparedTable.retireExcept, List.mem_map, List.mem_filter,
      List.contains_iff_mem]
    constructor
    · rintro ⟨e, ⟨-, he⟩, rfl⟩
      exact he
    · intro hport
      rcases h.covered port hport with hp | hp
      · cases hp
      · obtain ⟨e, he, rfl⟩ := List.mem_map.mp hp
        exact ⟨e, ⟨he, hport⟩, rfl⟩

/-- A port that stays keeps its listener. -/
theorem Filled.kept (h : Filled t wanted q) {port id : Nat} (he : (port, id) ∈ t.active)
    (hport : port ∈ wanted) : (port, id) ∈ q.final := by
  obtain ⟨q₀, h, rfl⟩ := h
  obtain ⟨news, hfinal, -, -⟩ := h.final
  simp only [PreparedTable.retireExcept, List.mem_filter, List.contains_iff_mem, hfinal,
    List.mem_append]
  exact ⟨.inl he, hport⟩

/-- The listener of a port that goes is retired. -/
theorem Filled.retired (h : Filled t wanted q) {port id : Nat} (he : (port, id) ∈ t.active)
    (hport : port ∉ wanted) : id ∈ q.retire ∧ id ∈ q.finalRetired := by
  obtain ⟨q₀, h, rfl⟩ := h
  obtain ⟨news, hfinal, -, -⟩ := h.final
  have hgone : id ∈ ((t.active ++ news).filter fun e => !wanted.contains e.1).map Prod.snd := by
    refine List.mem_map.mpr ⟨(port, id), List.mem_filter.mpr ⟨by simp [he], ?_⟩, rfl⟩
    simpa using hport
  simp only [PreparedTable.retireExcept, hfinal, List.mem_append]
  exact ⟨.inr hgone, .inr hgone⟩

/-- Only listeners that were in the map are retired. -/
theorem Filled.retire_subset (h : Filled t wanted q) :
    (∀ id ∈ q.retire, id ∈ t.active.map Prod.snd) ∧ q.finalRetired = t.retired ++ q.retire := by
  obtain ⟨q₀, h, rfl⟩ := h
  obtain ⟨news, hfinal, -, hnews⟩ := h.final
  constructor
  · intro id hid
    simp only [PreparedTable.retireExcept, h.retire, List.nil_append, hfinal] at hid
    obtain ⟨e, he, rfl⟩ := List.mem_map.mp hid
    obtain ⟨he, hport⟩ := List.mem_filter.mp he
    rcases List.mem_append.mp he with he | he
    · exact List.mem_map_of_mem he
    · simp [hnews e he] at hport
  · simp [PreparedTable.retireExcept, h.retire, h.finalRetired]

/-- Listeners are moved, and none is lost. -/
theorem Filled.perm (h : Filled t wanted q) : q.table.ids.Perm (t.ids ++ q.added) := by
  obtain ⟨q₀, h, rfl⟩ := h
  obtain ⟨news, hfinal, hadded, -⟩ := h.final
  have hsplit := (List.filter_append_perm (fun e : Nat × Nat => wanted.contains e.1) q₀.final).map
    Prod.snd
  simp only [ListenerTable.ids, PreparedTable.table, PreparedTable.retireExcept, h.finalRetired,
    hadded]
  rw [hfinal, List.map_append, List.map_append] at hsplit
  rw [hfinal]
  have hmoved : ∀ a b c : List Nat, (a ++ (b ++ c)).Perm (a ++ c ++ b) := by
    intro a b c
    rw [List.append_assoc]
    exact (List.perm_append_comm).append_left a
  refine (hmoved _ _ _).trans ((hsplit.append_right t.retired).trans ?_)
  rw [List.append_assoc, List.append_assoc]
  exact (List.perm_append_comm).append_left _

end Tables

/-! ## Stages of a listener -/

namespace Party

/-- It has not been told to retire. -/
structure Serving (q : Party) : Prop where
  retired : q.retired = false
  onDrained : q.onDrained = false
  retiring : q.retiring = 0
  posted : q.posted = 0
  erased : q.erased = 0

/-- It is told to retire, drains, and is drained. An accept can only be under way before it has
retired. -/
inductive Leaving (q : Party) : Prop where
  | told : q.retired = false → q.onDrained = false → q.retiring = 1 → q.posted = 0 →
      q.erased = 0 → Leaving q
  | draining : q.retired = true → q.onDrained = true → q.retiring = 0 → q.posted = 0 →
      q.erased = 0 → q.accepting = false → q.sessions ≠ [] → Leaving q
  | drained : q.retired = true → q.onDrained = false → q.retiring = 0 → q.posted = 1 →
      q.erased = 0 → q.accepting = false → q.sessions = [] → Leaving q

structure Gone (q : Party) : Prop where
  retired : q.retired = true
  onDrained : q.onDrained = false
  retiring : q.retiring = 0
  posted : q.posted = 0
  erased : q.erased = 1
  accepting : q.accepting = false
  sessions : q.sessions = []

/-- A handler of the listener keeps the stage that others see. -/
structure Follows (q q' : Party) : Prop where
  serving : q.Serving → q'.Serving
  leaving : q.Leaving → q'.Leaving
  gone : q.Gone → q'.Gone

variable {q : Party}

/-- A second notification does nothing. -/
theorem notifyIfDrained_follows (q : Party) : Follows q q.notifyIfDrained := by
  have hskip : ∀ {q : Party}, q.retired = false ∨ q.sessions ≠ [] ∨ q.onDrained = false →
      q.notifyIfDrained = q := by
    intro q h
    rw [notifyIfDrained, if_pos]
    simp only [Bool.or_eq_true, Bool.not_eq_true', List.isEmpty_eq_false_iff]
    tauto
  refine ⟨fun h => ?_, fun h => ?_, fun h => ?_⟩
  · rwa [hskip (.inl h.retired)]
  · cases h with
    | told hretired => rw [hskip (.inl hretired)]; exact .told hretired ‹_› ‹_› ‹_› ‹_›
    | draining _ _ _ _ _ _ hsessions =>
      rw [hskip (.inr (.inl hsessions))]; exact .draining ‹_› ‹_› ‹_› ‹_› ‹_› ‹_› hsessions
    | drained _ hdrained =>
      rw [hskip (.inr (.inr hdrained))]; exact .drained ‹_› hdrained ‹_› ‹_› ‹_› ‹_› ‹_›
  · rwa [hskip (.inr (.inr h.onDrained))]

/-- An accept goes on in a listener that has not retired. -/
theorem accepting_follows (hretired : q.retired = false) :
    Follows q { q with accepting := true } := by
  refine ⟨fun h => ⟨h.retired, h.onDrained, h.retiring, h.posted, h.erased⟩, fun h => ?_, fun h => ?_⟩
  · cases h with
    | told => exact .told ‹_› ‹_› ‹_› ‹_› ‹_›
    | draining h => rw [hretired] at h; cases h
    | drained h => rw [hretired] at h; cases h
  · have := h.retired
    rw [hretired] at this
    cases this

/-- Until that accept is over, the listener does not retire. -/
theorem accepted_follows (haccepting : q.accepting = true) (created : Nat) (sessions : List Nat) :
    Follows q { q with accepting := false, created := created, sessions := sessions } := by
  refine ⟨fun h => ⟨h.retired, h.onDrained, h.retiring, h.posted, h.erased⟩, fun h => ?_, fun h => ?_⟩
  · cases h with
    | told => exact .told ‹_› ‹_› ‹_› ‹_› ‹_›
    | draining _ _ _ _ _ h => rw [haccepting] at h; cases h
    | drained _ _ _ _ _ h => rw [haccepting] at h; cases h
  · have := h.accepting
    rw [haccepting] at this
    cases this

theorem closeSession_follows {session : Nat} (hsession : session ∈ q.sessions) :
    Follows q (q.closeSession session) := by
  refine ⟨fun h => ?_, fun h => ?_, fun h => ?_⟩
  · exact (notifyIfDrained_follows _).serving
      ⟨h.retired, h.onDrained, h.retiring, h.posted, h.erased⟩
  · cases h with
    | told => exact (notifyIfDrained_follows _).leaving (.told ‹_› ‹_› ‹_› ‹_› ‹_›)
    | draining hretired hdrained hretiring hposted herased haccepting _ =>
      unfold closeSession notifyIfDrained
      split
      · rename_i hskip
        refine .draining hretired hdrained hretiring hposted herased haccepting ?_
        simpa [hretired, hdrained] using hskip
      · rename_i hskip
        refine .drained hretired rfl hretiring ?_ herased haccepting ?_
        · simp [hposted]
        · simp only [hretired, hdrained, Bool.not_true, Bool.false_or, Bool.or_false,
            Bool.not_eq_true', Bool.not_eq_false] at hskip
          exact List.isEmpty_iff.mp hskip
    | drained _ _ _ _ _ _ hsessions => rw [hsessions] at hsession; cases hsession
  · rw [h.sessions] at hsession
    cases hsession

theorem retireOnExecutor_follows (hretiring : 0 < q.retiring) (haccepting : q.accepting = false) :
    Follows q q.retireOnExecutor := by
  refine ⟨fun h => ?_, fun h => ?_, fun h => ?_⟩
  · rw [h.retiring] at hretiring
    cases hretiring
  · cases h with
    | told _ _ hone hposted herased =>
      unfold retireOnExecutor notifyIfDrained
      split
      · rename_i hskip
        refine .draining rfl rfl (by simp [hone]) hposted herased haccepting ?_
        simpa using hskip
      · rename_i hskip
        refine .drained rfl rfl (by simp [hone]) ?_ herased haccepting ?_
        · simp [hposted]
        · simpa using hskip
    | draining _ _ hzero => rw [hzero] at hretiring; cases hretiring
    | drained _ _ hzero => rw [hzero] at hretiring; cases hretiring
  · rw [h.retiring] at hretiring
    cases hretiring

end Party

end Core
end WebServer
