import Mathlib.Data.List.AList

/-!
# WebServer.Lib.Table

Finite maps with non-dependent values, on Mathlib's `AList`: an association list whose keys are
pairwise distinct by construction.

* `set k o t`: store `o` under `k`, or remove `k` when `o` is `none`.
* `mapFilter f t`: visit every entry once, replacing its value or dropping the entry.
-/

namespace WebServer

abbrev Table (κ α : Type*) := AList (fun _ : κ => α)

namespace Table

variable {κ α : Type*} [DecidableEq κ]

def set (k : κ) (o : Option α) (t : Table κ α) : Table κ α :=
  match o with
  | some b => t.insert k b
  | none => t.erase k

theorem lookup_set (k k' : κ) (o : Option α) (t : Table κ α) :
    (set k o t).lookup k' = if k' = k then o else t.lookup k' := by
  by_cases hk : k' = k
  · subst hk
    cases o with
    | none => simp [set]
    | some b => simp [set]
  · cases o with
    | none => simp [set, hk, AList.lookup_erase_ne hk]
    | some b => simp [set, hk, AList.lookup_insert_ne hk]

@[simp] theorem lookup_set_self (k : κ) (o : Option α) (t : Table κ α) :
    (set k o t).lookup k = o := by simp [lookup_set]

theorem lookup_set_ne {k k' : κ} (h : k' ≠ k) (o : Option α) (t : Table κ α) :
    (set k o t).lookup k' = t.lookup k' := by simp [lookup_set, h]

/-- One pass over the entries; the key stays. -/
def keep (f : κ → α → Option α) (e : Σ _ : κ, α) : Option (Σ _ : κ, α) :=
  (f e.1 e.2).map fun b => ⟨e.1, b⟩

omit [DecidableEq κ] in
theorem keys_filterMap_sublist (f : κ → α → Option α) (l : List (Σ _ : κ, α)) :
    (l.filterMap (keep f)).keys.Sublist l.keys := by
  induction l with
  | nil => simp
  | cons e l ih =>
    obtain ⟨k, a⟩ := e
    simp only [List.filterMap_cons]
    cases hf : f k a with
    | none => simpa [keep, hf] using ih.cons k
    | some b => simpa [keep, hf] using ih.cons_cons k

def mapFilter (f : κ → α → Option α) (t : Table κ α) : Table κ α :=
  ⟨t.entries.filterMap (keep f), (keys_filterMap_sublist f t.entries).nodup t.nodupKeys⟩

theorem dlookup_filterMap (f : κ → α → Option α) (k : κ) (l : List (Σ _ : κ, α))
    (hl : l.NodupKeys) : (l.filterMap (keep f)).dlookup k = (l.dlookup k).bind (f k) := by
  induction l with
  | nil => rfl
  | cons e l ih =>
    obtain ⟨k', a⟩ := e
    obtain ⟨hk', hl'⟩ := List.nodupKeys_cons.mp hl
    have ih := ih hl'
    simp only [List.filterMap_cons]
    by_cases hk : k = k'
    · subst hk
      rw [List.dlookup_cons_eq]
      cases hf : f k a with
      | none =>
        have hnone : l.dlookup k = none := List.dlookup_eq_none.mpr hk'
        simpa [keep, hf, hnone] using ih
      | some b => simp [keep, hf]
    · rw [List.dlookup_cons_ne l ⟨k', a⟩ hk, ← ih]
      cases hf : f k' a with
      | none => simp [keep, hf]
      | some b => simpa [keep, hf] using List.dlookup_cons_ne _ (⟨k', b⟩ : Σ _ : κ, α) hk

theorem lookup_mapFilter (f : κ → α → Option α) (k : κ) (t : Table κ α) :
    (mapFilter f t).lookup k = (t.lookup k).bind (f k) :=
  dlookup_filterMap f k t.entries t.nodupKeys

theorem mem_entries_iff {k : κ} {a : α} {t : Table κ α} :
    (⟨k, a⟩ : Σ _ : κ, α) ∈ t.entries ↔ t.lookup k = some a :=
  AList.mem_lookup_iff.symm

end Table
end WebServer
