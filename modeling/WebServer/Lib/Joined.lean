import Mathlib.Data.List.Basic

/-!
# WebServer.Lib.Joined

Lists that are pieces with a separator between them.

* `splitOn_eq_iff`: splitting is the inverse of joining, for pieces without the separator.
* `Pieces`: pieces that are not empty either. A list joined from them neither starts nor ends with the
  separator, and has no two of them in a row.
-/

namespace WebServer
namespace Joined

variable {α : Type} {c : α}

theorem intercalate_cons {rest : List (List α)} (h : rest ≠ []) (piece : List α) :
    [c].intercalate (piece :: rest) = piece ++ c :: [c].intercalate rest := by
  rw [List.intercalate_cons_of_ne_nil h]
  simp

theorem intercalate_concat {pieces : List (List α)} (h : pieces ≠ []) (piece : List α) :
    [c].intercalate (pieces ++ [piece]) = [c].intercalate pieces ++ c :: piece := by
  induction pieces with
  | nil => exact absurd rfl h
  | cons first rest ih =>
    by_cases hrest : rest = []
    · subst hrest
      simp
    · rw [List.cons_append, intercalate_cons (by simp), ih hrest, intercalate_cons hrest]
      simp

/-- The last piece may be made longer. -/
theorem intercalate_append_last (pieces : List (List α)) (piece more : List α) :
    [c].intercalate (pieces ++ [piece ++ more]) = [c].intercalate (pieces ++ [piece]) ++ more := by
  by_cases h : pieces = []
  · subst h
    simp
  · rw [intercalate_concat h, intercalate_concat h]
    simp

theorem mem_intercalate {pieces : List (List α)} {b : α} (h : b ∈ [c].intercalate pieces) :
    b = c ∨ ∃ piece ∈ pieces, b ∈ piece := by
  induction pieces with
  | nil => cases h
  | cons first rest ih =>
    cases rest with
    | nil => exact .inr ⟨first, by simp, by simpa using h⟩
    | cons second rest =>
      rw [intercalate_cons (by simp), List.mem_append, List.mem_cons] at h
      rcases h with h | rfl | h
      · exact .inr ⟨first, by simp, h⟩
      · exact .inl rfl
      · exact (ih h).imp id fun ⟨piece, hp, hb⟩ => ⟨piece, by simp [List.mem_cons.mp hp], hb⟩

theorem mem_intercalate_of_mem {pieces : List (List α)} {piece : List α} (hp : piece ∈ pieces) {b : α}
    (hb : b ∈ piece) : b ∈ [c].intercalate pieces := by
  induction pieces with
  | nil => cases hp
  | cons first rest ih =>
    by_cases hrest : rest = []
    · subst hrest
      rw [List.mem_singleton.mp hp] at hb
      simpa using hb
    · rw [intercalate_cons hrest]
      rcases List.mem_cons.mp hp with rfl | hp
      · simp [hb]
      · simp [ih hp]

theorem map_intercalate (f : α → α) (hf : f c = c) (pieces : List (List α)) :
    ([c].intercalate pieces).map f = [c].intercalate (pieces.map (List.map f)) := by
  induction pieces with
  | nil => rfl
  | cons first rest ih =>
    by_cases hrest : rest = []
    · subst hrest
      simp
    · rw [intercalate_cons hrest, List.map_cons, intercalate_cons (by simpa using hrest), ← ih]
      simp [hf]

variable [DecidableEq α]

theorem not_mem_of_mem_splitOn {t piece : List α} (h : piece ∈ t.splitOn c) : c ∉ piece := by
  induction t generalizing piece with
  | nil => simp_all
  | cons b t ih =>
    rw [List.splitOn_cons_eq_if_modifyHead] at h
    split at h
    · rcases List.mem_cons.mp h with rfl | h
      · simp
      · exact ih h
    · rename_i hb
      cases ht : t.splitOn c with
      | nil => exact absurd ht (List.splitOn_ne_nil c t)
      | cons first rest =>
        rw [ht, List.modifyHead_cons] at h
        rw [ht] at ih
        rcases List.mem_cons.mp h with rfl | h
        · rw [List.mem_cons, not_or]
          exact ⟨fun hc => hb (by simp [hc]), ih (by simp)⟩
        · exact ih (by simp [h])

theorem splitOn_eq_iff {t : List α} {pieces : List (List α)} :
    t.splitOn c = pieces ↔
      pieces ≠ [] ∧ (∀ piece ∈ pieces, c ∉ piece) ∧ t = [c].intercalate pieces := by
  constructor
  · rintro rfl
    exact ⟨List.splitOn_ne_nil c t, fun _ h => not_mem_of_mem_splitOn h,
      (List.intercalate_splitOn c).symm⟩
  · rintro ⟨hne, hfree, rfl⟩
    exact List.splitOn_intercalate c hfree hne

structure Pieces (c : α) (pieces : List (List α)) : Prop where
  notNil : pieces ≠ []
  nonempty : ∀ piece ∈ pieces, piece ≠ []
  free : ∀ piece ∈ pieces, c ∉ piece

namespace Pieces

variable {pieces : List (List α)}

theorem splitOn (h : Pieces c pieces) : ([c].intercalate pieces).splitOn c = pieces :=
  List.splitOn_intercalate c h.free h.notNil

theorem ne_nil (h : Pieces c pieces) : [c].intercalate pieces ≠ [] := by
  intro hnil
  have hpieces := h.splitOn
  rw [hnil, List.splitOn_nil] at hpieces
  exact h.nonempty [] (by simp [← hpieces]) rfl

/-- Two separators in a row would be an empty piece. -/
theorem not_double (h : Pieces c pieces) (l r : List α) :
    [c].intercalate pieces ≠ l ++ c :: c :: r := by
  intro hdouble
  have hpieces := h.splitOn
  rw [hdouble, List.splitOn_append_cons_self, List.splitOn_cons_eq_if_modifyHead] at hpieces
  exact h.nonempty [] (by simp [← hpieces]) rfl

theorem head?_ne (h : Pieces c pieces) : ([c].intercalate pieces).head? ≠ some c := by
  intro hhead
  obtain ⟨rest, hrest⟩ := List.head?_eq_some_iff.mp hhead
  have hpieces := h.splitOn
  rw [hrest, List.splitOn_cons_eq_if_modifyHead] at hpieces
  exact h.nonempty [] (by simp [← hpieces]) rfl

theorem getLast?_ne (h : Pieces c pieces) : ([c].intercalate pieces).getLast? ≠ some c := by
  intro hlast
  obtain ⟨front, hfront⟩ := List.getLast?_eq_some_iff.mp hlast
  have hpieces := h.splitOn
  rw [hfront, List.splitOn_append_cons_self, List.splitOn_nil] at hpieces
  exact h.nonempty [] (by simp [← hpieces]) rfl

end Pieces

end Joined
end WebServer
