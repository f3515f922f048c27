import Mathlib.Data.List.Basic
import Mathlib.Data.Option.Basic

/-!
# WebServer.Lib.Run

Runs of a deterministic transition function `step : σ → ε → Option σ`; `none` means that the
event is not possible in that state.

* `run step s es`: the state after the events `es`, if every one of them is possible in turn.
* `Along step G s es`: every event of the run is taken in a state where `G` holds of it.
* `run_inv`, `run_inv_along`: the invariant rules. What every step preserves, every run does.
* `along_iff`, `along_iff_last`: the runs that keep a property, told by the steps that break it.
-/

namespace WebServer
namespace Run

variable {σ ε : Type*} {step : σ → ε → Option σ}

def run (step : σ → ε → Option σ) : σ → List ε → Option σ
  | s, [] => some s
  | s, e :: es =>
    match step s e with
    | some s' => run step s' es
    | none => none

/-- `G` holds of every event of the run, in the state the event is taken in. -/
def Along (step : σ → ε → Option σ) (G : σ → ε → Prop) : σ → List ε → Prop
  | _, [] => True
  | s, e :: es => G s e ∧ ∀ s', step s e = some s' → Along step G s' es

/-- A run can be checked against a decidable condition by running it. -/
instance decidableAlong (step : σ → ε → Option σ) (G : σ → ε → Prop) [∀ s e, Decidable (G s e)] :
    ∀ (s : σ) (es : List ε), Decidable (Along step G s es)
  | _, [] => isTrue trivial
  | s, e :: es =>
    match hs : step s e with
    | none => decidable_of_iff (G s e)
        ⟨fun hG => ⟨hG, fun s' h => by rw [hs] at h; cases h⟩, fun h => h.1⟩
    | some s₁ =>
      have := decidableAlong step G s₁ es
      decidable_of_iff (G s e ∧ Along step G s₁ es)
        ⟨fun hG => ⟨hG.1, fun s' h => by rw [hs] at h; cases h; exact hG.2⟩,
          fun h => ⟨h.1, h.2 s₁ hs⟩⟩

theorem Along.and {G H : σ → ε → Prop} {s : σ} {es : List ε} (hG : Along step G s es)
    (hH : Along step H s es) : Along step (fun s e => G s e ∧ H s e) s es := by
  induction es generalizing s with
  | nil => trivial
  | cons e es ih => exact ⟨⟨hG.1, hH.1⟩, fun s' hs => ih (hG.2 s' hs) (hH.2 s' hs)⟩

theorem run_cons {s s' : σ} {e : ε} {es : List ε} (h : run step s (e :: es) = some s') :
    ∃ s₁, step s e = some s₁ ∧ run step s₁ es = some s' := by
  simp only [run] at h
  split at h
  · rename_i s₁ hs; exact ⟨s₁, hs, h⟩
  · cases h

theorem run_append {s s' : σ} {es es' : List ε} :
    run step s (es ++ es') = some s' ↔
      ∃ s₁, run step s es = some s₁ ∧ run step s₁ es' = some s' := by
  induction es generalizing s with
  | nil => simp [run]
  | cons e es ih =>
    simp only [List.cons_append, run]
    split
    · exact ih
    · simp

theorem run_single {s s' : σ} {e : ε} : run step s [e] = some s' ↔ step s e = some s' := by
  simp only [run]
  split <;> simp_all

/-- The invariant rule for runs whose steps all meet `G`. -/
theorem run_inv_along {G : σ → ε → Prop} {P : σ → Prop}
    (hstep : ∀ s e s', P s → G s e → step s e = some s' → P s') {s s' : σ} {es : List ε}
    (hP : P s) (hG : Along step G s es) (h : run step s es = some s') : P s' := by
  induction es generalizing s with
  | nil => simp only [run, Option.some.injEq] at h; exact h ▸ hP
  | cons e es ih =>
    obtain ⟨s₁, hs, hr⟩ := run_cons h
    exact ih (hstep s e s₁ hP hG.1 hs) (hG.2 s₁ hs) hr

/-- The invariant rule: what every step preserves, every run preserves. -/
theorem run_inv {P : σ → Prop} (hstep : ∀ s e s', P s → step s e = some s' → P s')
    {s s' : σ} {es : List ε} (hP : P s) (h : run step s es = some s') : P s' := by
  induction es generalizing s with
  | nil => simp only [run, Option.some.injEq] at h; exact h ▸ hP
  | cons e es ih =>
    obtain ⟨s₁, hs, hr⟩ := run_cons h
    exact ih (hstep s e s₁ hP hs) hr

/-- A condition on the events alone is met along the run when every event meets it. -/
theorem along_of_forall {G : ε → Prop} {s : σ} {es : List ε} (h : ∀ e ∈ es, G e) :
    Along step (fun _ e => G e) s es := by
  induction es generalizing s with
  | nil => trivial
  | cons e es ih =>
    exact ⟨h e (by simp), fun s' _ => ih fun e' he' => h e' (by simp [he'])⟩

/-- Where `P` holds after a step exactly if it held before and the step meets `G`, a run ends in `P`
exactly if all its steps meet `G`. -/
theorem along_iff_last {G : σ → ε → Prop} {P I : σ → Prop}
    (hkeep : ∀ s e s', I s → step s e = some s' → I s')
    (hstep : ∀ s e s', I s → step s e = some s' → (P s' ↔ P s ∧ G s e)) {s s' : σ} {es : List ε}
    (hI : I s) (hP : P s) (h : run step s es = some s') : P s' ↔ Along step G s es := by
  induction es generalizing s with
  | nil =>
    cases h
    exact iff_of_true hP trivial
  | cons e es ih =>
    obtain ⟨s₁, hs, hr⟩ := run_cons h
    have hfirst := hstep s e s₁ hI hs
    constructor
    · intro hlast
      have hkept : P s₁ := by
        by_contra hlost
        have hnever : ∀ s₂, I s₂ ∧ ¬ P s₂ → ∀ e s₃, step s₂ e = some s₃ → I s₃ ∧ ¬ P s₃ := by
          intro s₂ h₂ e s₃ hs₃
          exact ⟨hkeep s₂ e s₃ h₂.1 hs₃, fun h₃ => h₂.2 ((hstep s₂ e s₃ h₂.1 hs₃).mp h₃).1⟩
        exact (run_inv (P := fun s => I s ∧ ¬ P s) (fun s₂ e s₃ h₂ hs₃ => hnever s₂ h₂ e s₃ hs₃)
          ⟨hkeep s e s₁ hI hs, hlost⟩ hr).2 hlast
      refine ⟨(hfirst.mp hkept).2, fun s₂ hs₂ => ?_⟩
      cases hs.symm.trans hs₂
      exact (ih (hkeep s e s₁ hI hs) hkept hr).mp hlast
    · rintro ⟨hG, hrest⟩
      exact (ih (hkeep s e s₁ hI hs) (hfirst.mpr ⟨hP, hG⟩) hr).mpr (hrest s₁ hs)

/-- Where every step that breaks `G` leaves `P`, the runs in which `P` holds throughout are those
whose steps all meet `G`. -/
theorem along_iff {G : σ → ε → Prop} {P I : σ → Prop} (hI : ∀ s, I s → P s)
    (hkeep : ∀ s e s', I s → G s e → step s e = some s' → I s')
    (hbreak : ∀ s e, P s → (∀ s', step s e = some s' → P s') → G s e) {s : σ} (hs : I s)
    {es : List ε} :
    (∀ es' s', es' <+: es → run step s es' = some s' → P s') ↔ Along step G s es := by
  constructor
  · intro h
    clear hs hI hkeep I
    induction es generalizing s with
    | nil => trivial
    | cons e es ih =>
      constructor
      · apply hbreak s e (h [] s (by simp) rfl)
        intro s' hs'
        exact h [e] s' (by simp) (run_single.mpr hs')
      · intro s₁ hs₁
        apply ih
        intro es' s' hes' hrun
        apply h (e :: es') s' (by simpa using hes')
        simp only [run, hs₁]
        exact hrun
  · intro h es' s' hes' hrun
    obtain ⟨rest, rfl⟩ := hes'
    apply hI
    induction es' generalizing s with
    | nil =>
      simp only [run, Option.some.injEq] at hrun
      exact hrun ▸ hs
    | cons e es' ih =>
      obtain ⟨s₁, hs₁, hrun⟩ := run_cons hrun
      exact ih (hkeep s e s₁ hs h.1 hs₁) hrun (h.2 s₁ hs₁)

end Run
end WebServer
