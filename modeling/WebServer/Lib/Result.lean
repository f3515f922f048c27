import Mathlib.Data.List.Nodup

/-!
# WebServer.Lib.Result

Computations that may fail with an error: what a success says about the steps.
-/

namespace WebServer
namespace Result

variable {ε α β σ : Type}

theorem bind_ok {x : Except ε α} {f : α → Except ε β} {b : β} (h : x >>= f = .ok b) :
    ∃ a, x = .ok a ∧ f a = .ok b := by
  cases x with
  | error e => cases h
  | ok a => exact ⟨a, rfl, h⟩

theorem ok_bind (a : α) (f : α → Except ε β) : (Except.ok a >>= f) = f a := rfl

theorem bind_ok_iff {x : Except ε α} {f : α → Except ε β} {b : β} :
    x >>= f = .ok b ↔ ∃ a, x = .ok a ∧ f a = .ok b := by
  constructor
  · exact bind_ok
  · rintro ⟨a, rfl, h⟩
    exact h

theorem ok_of_toOption {x : Except ε α} {a : α} (h : x.toOption = some a) : x = .ok a := by
  cases x with
  | error e => cases h
  | ok b => exact congrArg Except.ok (Option.some.inj h)

/-- A test that was passed. -/
theorem guard_ok {p : Prop} [Decidable p] {e : ε} {k : Unit → Except ε β} {b : β}
    (h : (if p then throw e >>= k else k ()) = .ok b) : ¬ p ∧ k () = .ok b := by
  split at h
  · cases h
  · rename_i hp
    exact ⟨hp, h⟩

theorem forM_ok {f : α → Except ε Unit} {l : List α} (h : l.forM f = .ok ()) :
    ∀ a ∈ l, f a = .ok () := by
  induction l with
  | nil => simp
  | cons a l ih =>
    rw [List.forM_eq_forM, List.forM_cons] at h
    obtain ⟨⟨⟩, ha, h⟩ := bind_ok h
    intro b hb
    rcases List.mem_cons.mp hb with rfl | hb
    · exact ha
    · exact ih h b hb

theorem mapM_ok {f : α → Except ε β} {l : List α} {l' : List β} (h : l.mapM f = .ok l') :
    ∀ b ∈ l', ∃ a ∈ l, f a = .ok b := by
  induction l generalizing l' with
  | nil => cases h; simp
  | cons a l ih =>
    rw [List.mapM_cons] at h
    obtain ⟨b, hb, h⟩ := bind_ok h
    obtain ⟨rest, hrest, h⟩ := bind_ok h
    cases h
    intro c hc
    rcases List.mem_cons.mp hc with rfl | hc
    · exact ⟨a, by simp, hb⟩
    · obtain ⟨a', ha', hf⟩ := ih hrest c hc
      exact ⟨a', by simp [ha'], hf⟩

theorem mapM_ok_mem {f : α → Except ε β} {l : List α} {l' : List β} (h : l.mapM f = .ok l') :
    ∀ a ∈ l, ∃ b ∈ l', f a = .ok b := by
  induction l generalizing l' with
  | nil => simp
  | cons a l ih =>
    rw [List.mapM_cons] at h
    obtain ⟨b, hb, h⟩ := bind_ok h
    obtain ⟨rest, hrest, h⟩ := bind_ok h
    cases h
    intro c hc
    rcases List.mem_cons.mp hc with rfl | hc
    · exact ⟨b, by simp, hb⟩
    · obtain ⟨b', hb', hf⟩ := ih hrest c hc
      exact ⟨b', by simp [hb'], hf⟩

/-- A loop in which every element is accepted. -/
theorem mapM_of_forall {f : α → Except ε β} {l : List α} (h : ∀ a ∈ l, ∃ b, f a = .ok b) :
    ∃ l', l.mapM f = .ok l' ∧ List.Forall₂ (fun a b => f a = .ok b) l l' := by
  induction l with
  | nil => exact ⟨[], rfl, .nil⟩
  | cons a l ih =>
    obtain ⟨b, hb⟩ := h a (by simp)
    obtain ⟨l', hl', hall⟩ := ih fun c hc => h c (by simp [hc])
    refine ⟨b :: l', ?_, .cons hb hall⟩
    rw [List.mapM_cons, hb, hl']
    rfl

theorem mapM_ok_length {f : α → Except ε β} {l : List α} {l' : List β} (h : l.mapM f = .ok l') :
    l'.length = l.length := by
  induction l generalizing l' with
  | nil => cases h; rfl
  | cons a l ih =>
    rw [List.mapM_cons] at h
    obtain ⟨b, -, h⟩ := bind_ok h
    obtain ⟨rest, hrest, h⟩ := bind_ok h
    cases h
    rw [List.length_cons, List.length_cons, ih hrest]

/-- Every result of the loop determines the element that it was made from. -/
theorem mapM_ok_map {f : α → Except ε β} {g : β → α} {l : List α} {l' : List β}
    (hg : ∀ a b, f a = .ok b → g b = a) (h : l.mapM f = .ok l') : l'.map g = l := by
  induction l generalizing l' with
  | nil => cases h; rfl
  | cons a l ih =>
    rw [List.mapM_cons] at h
    obtain ⟨b, hb, h⟩ := bind_ok h
    obtain ⟨rest, hrest, h⟩ := bind_ok h
    cases h
    rw [List.map_cons, hg a b hb, ih hrest]

theorem mapM_map_ok {f : α → Except ε β} {g : β → α} {l : List β} (h : ∀ b ∈ l, f (g b) = .ok b) :
    (l.map g).mapM f = .ok l := by
  induction l with
  | nil => rfl
  | cons b l ih =>
    rw [List.map_cons, List.mapM_cons, h b (by simp), ih fun c hc => h c (by simp [hc])]
    rfl

/-- What every accepted step keeps, the accepted loop keeps. -/
theorem foldlM_ok {f : σ → α → Except ε σ} {P : σ → Prop} {l : List α}
    (hstep : ∀ s a s', a ∈ l → P s → f s a = .ok s' → P s') {s s' : σ} (hs : P s)
    (h : l.foldlM f s = .ok s') : P s' := by
  induction l generalizing s with
  | nil => cases h; exact hs
  | cons a l ih =>
    rw [List.foldlM_cons] at h
    obtain ⟨s₁, ha, h⟩ := bind_ok h
    exact ih (fun s a s' hm => hstep s a s' (by simp [hm])) (hstep s a s₁ (by simp) hs ha) h

/-- Every step of an accepted loop was accepted. -/
theorem foldlM_ok_mem {f : σ → α → Except ε σ} {l : List α} {s s' : σ}
    (h : l.foldlM f s = .ok s') : ∀ a ∈ l, ∃ t t', f t a = .ok t' := by
  induction l generalizing s with
  | nil => simp
  | cons a l ih =>
    rw [List.foldlM_cons] at h
    obtain ⟨s₁, ha, h⟩ := bind_ok h
    intro b hb
    rcases List.mem_cons.mp hb with rfl | hb
    · exact ⟨s, s₁, ha⟩
    · exact ih h b hb

/-- Insertions that refuse a key which is there already. -/
structure Inserts {κ : Type} (f : σ → κ → Except ε σ) (keys : σ → List κ) (put : σ → κ → σ) :
    Prop where
  ok : ∀ {s k}, k ∉ keys s → f s k = .ok (put s k)
  new : ∀ {s k s'}, f s k = .ok s' → k ∉ keys s
  keys_put : ∀ s k, keys (put s k) = keys s ++ [k]

/-- A loop of insertions is accepted exactly when no key comes twice. -/
theorem Inserts.foldlM_ok_iff {κ : Type} {f : σ → κ → Except ε σ} {keys : σ → List κ} {put : σ → κ → σ}
    (h : Inserts f keys put) {ks : List κ} {s s' : σ} (hs : (keys s).Nodup) :
    ks.foldlM f s = .ok s' ↔ (keys s ++ ks).Nodup ∧ s' = ks.foldl put s := by
  induction ks generalizing s with
  | nil =>
    rw [List.append_nil]
    constructor
    · intro hok; cases hok; exact ⟨hs, rfl⟩
    · rintro ⟨-, rfl⟩; rfl
  | cons k ks ih =>
    rw [List.foldlM_cons, List.foldl_cons]
    constructor
    · intro hok
      obtain ⟨s₁, hk, hrest⟩ := bind_ok hok
      have hnew := h.new hk
      rw [h.ok hnew, Except.ok.injEq] at hk
      subst hk
      have hput : (keys (put s k)).Nodup := by
        rw [h.keys_put, ← List.concat_eq_append, List.nodup_concat]
        exact ⟨hnew, hs⟩
      obtain ⟨hall, rfl⟩ := (ih hput).mp hrest
      rw [h.keys_put, List.append_assoc] at hall
      exact ⟨hall, rfl⟩
    · rintro ⟨hall, rfl⟩
      rw [← List.singleton_append, ← List.append_assoc, ← h.keys_put] at hall
      have hput := (List.nodup_append.mp hall).1
      have hnew : k ∉ keys s := by
        rw [h.keys_put, ← List.concat_eq_append, List.nodup_concat] at hput
        exact hput.1
      rw [h.ok hnew]
      exact (ih hput).mpr ⟨hall, rfl⟩

/-- A loop that tests every element and refuses one whose key is there already. -/
theorem foldlM_put_ok_iff {κ : Type} {f : σ → α → Except ε σ} {valid : α → Prop} {key : α → κ}
    {keys : σ → List κ} {put : σ → α → σ}
    (hf : ∀ s a s', f s a = .ok s' ↔ valid a ∧ key a ∉ keys s ∧ s' = put s a)
    (hkeys : ∀ s a, (keys (put s a)).Perm (keys s ++ [key a])) {l : List α} {s s' : σ}
    (hs : (keys s).Nodup) :
    l.foldlM f s = .ok s' ↔
      (∀ a ∈ l, valid a) ∧ (keys s ++ l.map key).Nodup ∧ s' = l.foldl put s := by
  induction l generalizing s with
  | nil =>
    constructor
    · intro h
      cases h
      exact ⟨by simp, by simpa using hs, rfl⟩
    · rintro ⟨-, -, rfl⟩
      rfl
  | cons a l ih =>
    have hmoved : (keys (put s a) ++ l.map key).Perm (keys s ++ (a :: l).map key) := by
      have happend := (hkeys s a).append_right (l.map key)
      rwa [List.append_assoc, List.singleton_append] at happend
    simp only [List.foldlM_cons, bind_ok_iff, List.foldl_cons, List.forall_mem_cons]
    constructor
    · rintro ⟨s₁, ha, hrest⟩
      obtain ⟨hvalid, hnew, rfl⟩ := (hf s a s₁).mp ha
      have hput : (keys (put s a)).Nodup := by
        rw [(hkeys s a).nodup_iff, ← List.concat_eq_append, List.nodup_concat]
        exact ⟨hnew, hs⟩
      obtain ⟨hall, hnodup, rfl⟩ := (ih hput).mp hrest
      exact ⟨⟨hvalid, hall⟩, hmoved.nodup_iff.mp hnodup, rfl⟩
    · rintro ⟨⟨hvalid, hall⟩, hnodup, rfl⟩
      have hnodup' := hmoved.nodup_iff.mpr hnodup
      have hput := hnodup'.of_append_left
      have hnew : key a ∉ keys s := by
        rw [(hkeys s a).nodup_iff, ← List.concat_eq_append, List.nodup_concat] at hput
        exact hput.1
      exact ⟨put s a, (hf s a _).mpr ⟨hvalid, hnew, rfl⟩,
        (ih hnodup'.of_append_left).mpr ⟨hall, hnodup', rfl⟩⟩

/-- A loop that refuses a result which is there already. -/
theorem foldlM_unique_ok_iff [DecidableEq β] {f : α → Except ε β} {duplicate : β → ε} {l : List α}
    {done out : List β} (hdone : done.Nodup) :
    l.foldlM (fun done a => do
      let b ← f a
      if b ∈ done then throw (duplicate b) else pure (done ++ [b])) done = .ok out ↔
      ∃ l', l.mapM f = .ok l' ∧ out = done ++ l' ∧ out.Nodup := by
  induction l generalizing done with
  | nil =>
    constructor
    · intro h
      cases h
      exact ⟨[], rfl, by simp, hdone⟩
    · rintro ⟨_, h, rfl, -⟩
      cases h
      simp [pure, Except.pure]
  | cons a l ih =>
    simp only [List.foldlM_cons, List.mapM_cons, bind_ok_iff]
    constructor
    · rintro ⟨done', ⟨b, hb, hput⟩, hrest⟩
      split at hput
      · cases hput
      · rename_i hnew
        cases hput
        have hdone' : (done ++ [b]).Nodup := by
          rw [← List.concat_eq_append, List.nodup_concat]
          exact ⟨hnew, hdone⟩
        obtain ⟨l', hl', hout, hnodup⟩ := (ih hdone').mp hrest
        exact ⟨b :: l', ⟨b, hb, l', hl', rfl⟩, by simpa using hout, hnodup⟩
    · rintro ⟨_, ⟨b, hb, l', hl', hcons⟩, rfl, hnodup⟩
      cases hcons
      have hdone' : (done ++ [b]).Nodup := by
        refine hnodup.sublist ?_
        simp
      have hnew : b ∉ done := by
        rw [← List.concat_eq_append, List.nodup_concat] at hdone'
        exact hdone'.1
      exact ⟨done ++ [b], ⟨b, hb, by rw [if_neg hnew]; rfl⟩,
        (ih hdone').mpr ⟨l', hl', by simp, hnodup⟩⟩

/-- What a step leaves alone, the loop leaves alone. -/
theorem mapM_ok_self {f : α → Except ε α} {l : List α} (h : ∀ a ∈ l, f a = .ok a) :
    l.mapM f = .ok l := by
  induction l with
  | nil => rfl
  | cons a l ih =>
    rw [List.mapM_cons, h a (by simp), ih fun b hb => h b (by simp [hb])]
    rfl

/-- A loop over other elements and another state does the same when every step does. -/
theorem foldlM_map {τ : Type} {f : σ → α → Except ε σ} {f' : τ → β → Except ε τ} {g : σ → τ} {k : α → β}
    (hstep : ∀ s a, (f s a).map g = f' (g s) (k a)) (l : List α) (s : σ) :
    (l.foldlM f s).map g = (l.map k).foldlM f' (g s) := by
  induction l generalizing s with
  | nil => rfl
  | cons a l ih =>
    rw [List.map_cons, List.foldlM_cons, List.foldlM_cons, ← hstep]
    cases f s a with
    | error e => rfl
    | ok s' => exact ih s'

end Result
end WebServer
