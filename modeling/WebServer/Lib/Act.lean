import Mathlib.Data.List.Basic

/-!
# WebServer.Lib.Act

Actions that read and change a state and may throw; what was changed before a throw stays changed.

* `Spec P m Q E`: from a state in `P`, the action `m` returns in `Q` or throws in `E`.
* `guarded release m`: a destructor, run when an exception leaves `m`.
* `caught recover m`: the exceptions of `m` end in `recover`.
* `rescued handler m`: the exceptions of `m` are answered by another action.
* `onPart get set m`: an action on one part of the state.

The rules derive the specification of an action from those of its parts. `spec_loop` is the rule
for a loop over a list, by an invariant.
-/

namespace WebServer
namespace Act

variable {ε σ τ α β γ : Type}

def Spec (P : σ → Prop) (m : EStateM ε σ α) (Q : α → σ → Prop) (E : σ → Prop) : Prop :=
  ∀ s, P s →
    match m s with
    | .ok a s' => Q a s'
    | .error _ s' => E s'

/-- An action without an effect on the state. -/
def attempt (x : Except ε α) : EStateM ε σ α := fun s =>
  match x with
  | .ok a => .ok a s
  | .error e => .error e s

/-- Throws when there is a failure to report. -/
def failing (failure : Option ε) : EStateM ε σ Unit := fun s =>
  match failure with
  | none => .ok () s
  | some e => .error e s

def guarded (release : σ → σ) (m : EStateM ε σ α) : EStateM ε σ α := fun s =>
  match m s with
  | .ok a s' => .ok a s'
  | .error e s' => .error e (release s')

/-- A handler that no exception leaves. -/
def caught (recover : σ → σ) (m : EStateM ε σ Unit) : EStateM ε σ Unit := fun s =>
  match m s with
  | .ok _ s' => .ok () s'
  | .error _ s' => .ok () (recover s')

/-- The exceptions of `m` are answered by `handler`. -/
def rescued (handler m : EStateM ε σ α) : EStateM ε σ α := fun s =>
  match m s with
  | .ok a s' => .ok a s'
  | .error _ s' => handler s'

def onPart (get : σ → τ) (set : σ → τ → σ) (m : EStateM ε τ α) : EStateM ε σ α := fun s =>
  match m (get s) with
  | .ok a t => .ok a (set s t)
  | .error e t => .error e (set s t)

/-- The action for each element in turn. -/
def loop (body : β → EStateM ε σ Unit) : List β → EStateM ε σ Unit
  | [] => pure ()
  | b :: bs => do body b; loop body bs

variable {P P' : σ → Prop} {Q Q' : α → σ → Prop} {E E' : σ → Prop}

theorem spec_conseq {m : EStateM ε σ α} (h : Spec P m Q E) (hP : ∀ s, P' s → P s)
    (hQ : ∀ a s, Q a s → Q' a s) (hE : ∀ s, E s → E' s) : Spec P' m Q' E' := by
  intro s hs
  have h := h s (hP s hs)
  cases hm : m s with
  | ok a s' => rw [hm] at h; exact hQ a s' h
  | error e s' => rw [hm] at h; exact hE s' h

/-- A fact that does not depend on the state. -/
theorem spec_fact {p : Prop} {m : EStateM ε σ α} (h : p → Spec P m Q E) :
    Spec (fun s => p ∧ P s) m Q E := fun s hs => h hs.1 s hs.2

theorem spec_pure {a : α} (h : ∀ s, P s → Q a s) : Spec P (pure a : EStateM ε σ α) Q E := h

theorem spec_modify {f : σ → σ} {Q : Unit → σ → Prop} (h : ∀ s, P s → Q () (f s)) :
    Spec P (modify f : EStateM ε σ Unit) Q E := h

theorem spec_bind {m : EStateM ε σ β} {f : β → EStateM ε σ α} {M : β → σ → Prop}
    (hm : Spec P m M E) (hf : ∀ b, Spec (M b) (f b) Q E) : Spec P (m >>= f) Q E := by
  intro s hs
  have h := hm s hs
  change match EStateM.bind m f s with
    | .ok a s' => Q a s'
    | .error _ s' => E s'
  unfold EStateM.bind
  cases hb : m s with
  | ok b s' => rw [hb] at h; exact hf b s' h
  | error e s' => rw [hb] at h; exact h

theorem spec_get {Q : σ → σ → Prop} (h : ∀ s, P s → Q s s) :
    Spec P (get : EStateM ε σ σ) Q E := h

/-- A state that has been read is the one that the rest starts from. -/
theorem spec_read {f : σ → EStateM ε σ α} (h : ∀ s, P s → Spec (· = s) (f s) Q E) :
    Spec P (get >>= f) Q E := fun s hs => h s hs s rfl

theorem spec_at {m : EStateM ε σ α} {s : σ} (h : Spec P m Q E) (hs : P s) : Spec (· = s) m Q E :=
  spec_conseq h (fun _ heq => heq ▸ hs) (fun _ _ h => h) fun _ h => h

theorem spec_ite {c : Prop} [Decidable c] {m m' : EStateM ε σ α} (ht : c → Spec P m Q E)
    (hf : ¬ c → Spec P m' Q E) : Spec P (if c then m else m') Q E := by
  by_cases hc : c
  · rw [if_pos hc]
    exact ht hc
  · rw [if_neg hc]
    exact hf hc

theorem spec_attempt {x : Except ε α} (hok : ∀ a, x = .ok a → ∀ s, P s → Q a s)
    (herr : ∀ s, P s → E s) : Spec P (attempt x) Q E := by
  intro s hs
  unfold attempt
  cases hx : x with
  | ok a => exact hok a hx s hs
  | error e => exact herr s hs

theorem spec_failing {failure : Option ε} {Q : Unit → σ → Prop} (hok : ∀ s, P s → Q () s)
    (herr : ∀ s, P s → E s) : Spec P (failing failure) Q E := by
  intro s hs
  unfold failing
  cases failure with
  | none => exact hok s hs
  | some e => exact herr s hs

theorem spec_guarded {release : σ → σ} {m : EStateM ε σ α} (h : Spec P m Q fun s => E (release s)) :
    Spec P (guarded release m) Q E := by
  intro s hs
  have h := h s hs
  unfold guarded
  cases hm : m s with
  | ok a s' => rw [hm] at h; exact h
  | error e s' => rw [hm] at h; exact h

theorem spec_caught {recover : σ → σ} {m : EStateM ε σ Unit} {Q : Unit → σ → Prop}
    (h : Spec P m Q fun s => Q () (recover s)) : Spec P (caught recover m) Q E := by
  intro s hs
  have h := h s hs
  unfold caught
  cases hm : m s with
  | ok u s' => rw [hm] at h; exact h
  | error e s' => rw [hm] at h; exact h

theorem spec_rescued {handler m : EStateM ε σ α} (h : Spec P m Q E') (hrest : Spec E' handler Q E) :
    Spec P (rescued handler m) Q E := by
  intro s hs
  have h := h s hs
  unfold rescued
  cases hm : m s with
  | ok a s' => rw [hm] at h; exact h
  | error e s' => rw [hm] at h; exact hrest s' h

theorem spec_onPart {get : σ → τ} {set : σ → τ → σ} {m : EStateM ε τ α}
    (h : ∀ s, P s → Spec (· = get s) m (fun a t => Q a (set s t)) fun t => E (set s t)) :
    Spec P (onPart get set m) Q E := by
  intro s hs
  have h := h s hs (get s) rfl
  unfold onPart
  cases hm : m (get s) with
  | ok a t => rw [hm] at h; exact h
  | error e t => rw [hm] at h; exact h

/-- What every round of a loop preserves, the loop preserves. -/
theorem spec_loop {I : σ → Prop} {body : β → EStateM ε σ Unit}
    (h : ∀ b, Spec I (body b) (fun _ => I) E) (bs : List β) :
    Spec I (loop body bs) (fun _ => I) E := by
  induction bs with
  | nil => exact spec_pure fun s hs => hs
  | cons b bs ih => exact spec_bind (h b) fun _ => ih

theorem loop_append (body : β → EStateM ε σ Unit) (bs bs' : List β) :
    loop body (bs ++ bs') = (do loop body bs; loop body bs') := by
  induction bs with
  | nil => rfl
  | cons b bs ih =>
    rw [List.cons_append, loop, ih, loop, bind_assoc]

/-! ## Actions that have returned -/

section Returned

variable {s s' : σ}

theorem bind_eq_ok {m : EStateM ε σ β} {f : β → EStateM ε σ α} {a : α}
    (h : (m >>= f) s = .ok a s') : ∃ b s₁, m s = .ok b s₁ ∧ f b s₁ = .ok a s' := by
  change EStateM.bind m f s = .ok a s' at h
  unfold EStateM.bind at h
  cases hm : m s with
  | ok b s₁ => rw [hm] at h; exact ⟨b, s₁, rfl, h⟩
  | error e s₁ => rw [hm] at h; cases h

theorem attempt_eq_ok {x : Except ε α} {a : α} (h : attempt x s = .ok a s') :
    x = .ok a ∧ s' = s := by
  unfold attempt at h
  cases x with
  | ok b => cases h; exact ⟨rfl, rfl⟩
  | error e => cases h

theorem failing_eq_ok {failure : Option ε} {u : Unit} (h : failing failure s = .ok u s') :
    s' = s := by
  unfold failing at h
  cases failure with
  | none => cases h; rfl
  | some e => cases h

theorem guarded_eq_ok {release : σ → σ} {m : EStateM ε σ α} {a : α}
    (h : guarded release m s = .ok a s') : m s = .ok a s' := by
  unfold guarded at h
  cases hm : m s with
  | ok b s₁ => rw [hm] at h; exact h
  | error e s₁ => rw [hm] at h; cases h

theorem onPart_eq_ok {get : σ → τ} {set : σ → τ → σ} {m : EStateM ε τ α} {a : α}
    (h : onPart get set m s = .ok a s') : ∃ t, m (get s) = .ok a t ∧ s' = set s t := by
  unfold onPart at h
  cases hm : m (get s) with
  | ok b t => rw [hm] at h; cases h; exact ⟨t, rfl, rfl⟩
  | error e t => rw [hm] at h; cases h

theorem loop_cons_eq_ok {body : β → EStateM ε σ Unit} {b : β} {bs : List β} {u : Unit}
    (h : loop body (b :: bs) s = .ok u s') : ∃ s₁, body b s = .ok () s₁ ∧ loop body bs s₁ = .ok u s' := by
  obtain ⟨⟨⟩, s₁, hb, hrest⟩ := bind_eq_ok h
  exact ⟨s₁, hb, hrest⟩

theorem bind_of_ok {m : EStateM ε σ β} {f : β → EStateM ε σ α} {b : β} (h : m s = .ok b s') :
    (m >>= f) s = f b s' := by
  change EStateM.bind m f s = f b s'
  unfold EStateM.bind
  rw [h]

theorem bind_of_error {m : EStateM ε σ β} {f : β → EStateM ε σ α} {e : ε} (h : m s = .error e s') :
    (m >>= f) s = .error e s' := by
  change EStateM.bind m f s = .error e s'
  unfold EStateM.bind
  rw [h]

theorem loop_cons_of_ok {body : β → EStateM ε σ Unit} {b : β} {bs : List β}
    (h : body b s = .ok () s') : loop body (b :: bs) s = loop body bs s' := bind_of_ok h

end Returned

end Act
end WebServer
