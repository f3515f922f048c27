import Mathlib.Data.List.OfFn
import Mathlib.Data.List.TakeDrop

/-!
# WebServer.Lib.Bits

The bits of words and of sequences of words, most significant first.

* `and_highMask_eq_iff`: words agree under the mask of the `n` highest bits when their first `n` bits
  do.
* `take_flatMap_eq_iff`: sequences of words agree on their first bits when they agree on the words
  before and on the first bits of the next one.
-/

namespace WebServer

section Words

variable {w : ℕ}

/-- The bits of a word, most significant first. -/
def wordBits (x : BitVec w) : List Bool := List.ofFn fun i : Fin w => x.getMsbD i

/-- The word with the `n` highest bits set. -/
def highMask (w n : ℕ) : BitVec w := BitVec.allOnes w <<< (w - n)

@[simp]
theorem length_wordBits (x : BitVec w) : (wordBits x).length = w := by
  simp [wordBits]

theorem take_wordBits_eq_iff (x y : BitVec w) {n : ℕ} (h : n ≤ w) :
    (wordBits x).take n = (wordBits y).take n ↔ ∀ i < n, x.getMsbD i = y.getMsbD i := by
  constructor
  · intro heq i hi
    have hbit := congrArg (fun l => l[i]?) heq
    simpa [wordBits, List.getElem?_take_of_lt hi, show i < w by omega] using hbit
  · intro hall
    apply List.ext_getElem
    · simp
    · intro i hx hy
      have hi : i < n := by simp at hx; omega
      simpa [wordBits] using hall i hi

theorem wordBits_injective : Function.Injective (wordBits (w := w)) := by
  intro x y h
  apply BitVec.eq_of_getMsbD_eq
  exact (take_wordBits_eq_iff x y le_rfl).mp (by rw [h])

theorem getMsbD_highMask {n i : ℕ} (h : n ≤ w) :
    (highMask w n).getMsbD i = decide (i < n) := by
  rw [highMask, BitVec.getMsbD_shiftLeft, BitVec.getMsbD_allOnes]
  exact decide_eq_decide.mpr (by omega)

theorem and_highMask_eq_iff (x y : BitVec w) {n : ℕ} (h : n ≤ w) :
    x &&& highMask w n = y &&& highMask w n ↔ (wordBits x).take n = (wordBits y).take n := by
  rw [take_wordBits_eq_iff x y h]
  constructor
  · intro heq i hi
    have hbit := congrArg (fun z => z.getMsbD i) heq
    simpa [getMsbD_highMask h, hi] using hbit
  · intro hall
    apply BitVec.eq_of_getMsbD_eq
    intro i _
    rw [BitVec.getMsbD_and, BitVec.getMsbD_and, getMsbD_highMask h]
    by_cases hin : i < n
    · rw [hall i hin]
    · simp [hin]

end Words

/-! ## Sequences of words -/

section Sequences

variable {α β : Type} {f : α → List β} {k : ℕ}

theorem drop_flatMap (hf : ∀ x, (f x).length = k) (q : ℕ) (l : List α) :
    (l.flatMap f).drop (q * k) = (l.drop q).flatMap f := by
  induction q generalizing l with
  | zero => simp
  | succ q ih =>
    cases l with
    | nil => simp
    | cons x l =>
      rw [List.flatMap_cons, List.drop_succ_cons, ← ih l, Nat.succ_mul, Nat.add_comm,
        ← hf x, List.drop_append]
      simp

theorem take_flatMap (hf : ∀ x, (f x).length = k) (q : ℕ) (l : List α) :
    (l.flatMap f).take (q * k) = (l.take q).flatMap f := by
  induction q generalizing l with
  | zero => simp
  | succ q ih =>
    cases l with
    | nil => simp
    | cons x l =>
      rw [List.flatMap_cons, List.take_succ_cons, List.flatMap_cons, ← ih l, Nat.succ_mul,
        Nat.add_comm, ← hf x, List.take_append]
      simp

theorem flatMap_inj (hf : ∀ x, (f x).length = k) (hinj : Function.Injective f) {l m : List α}
    (hlen : l.length = m.length) : l.flatMap f = m.flatMap f ↔ l = m := by
  constructor
  · intro heq
    induction l generalizing m with
    | nil => exact (List.length_eq_zero_iff.mp hlen.symm).symm
    | cons x l ih =>
      cases m with
      | nil => cases hlen
      | cons y m =>
        rw [List.flatMap_cons, List.flatMap_cons] at heq
        obtain ⟨hx, hl⟩ := List.append_inj heq (by rw [hf, hf])
        rw [hinj hx, ih (Nat.succ.inj hlen) hl]
  · intro heq
    rw [heq]

/-- The first `q` words, and `r` places of the next. -/
theorem take_flatMap_eq_iff (hf : ∀ x, (f x).length = k) (hinj : Function.Injective f)
    {l m : List α} (hlen : l.length = m.length) (q : ℕ) {r : ℕ} (hr : r < k) :
    (l.flatMap f).take (q * k + r) = (m.flatMap f).take (q * k + r) ↔
      l.take q = m.take q ∧
        ∀ x y, l[q]? = some x → m[q]? = some y → (f x).take r = (f y).take r := by
  have hnext (l : List α) :
      ((l.drop q).flatMap f).take r = (l[q]?.elim [] f).take r := by
    rcases hd : l.drop q with _ | ⟨x, rest⟩
    · rw [List.getElem?_eq_none (List.drop_eq_nil_iff.mp hd)]
      rfl
    · have hx : l[q]? = some x := by
        rw [← List.head?_drop, hd]
        rfl
      rw [hx, List.flatMap_cons, List.take_append_of_le_length (by rw [hf]; omega)]
      rfl
  have htake : (l.take q).length = (m.take q).length := by simp [hlen]
  rw [List.take_add, List.take_add, take_flatMap hf, take_flatMap hf, drop_flatMap hf,
    drop_flatMap hf, hnext l, hnext m]
  have hsize : ((l.take q).flatMap f).length = ((m.take q).flatMap f).length := by
    simp only [List.length_flatMap, hf, List.map_const', htake]
  constructor
  · intro heq
    obtain ⟨hfront, hlast⟩ := List.append_inj heq hsize
    refine ⟨(flatMap_inj hf hinj htake).mp hfront, fun x y hx hy => ?_⟩
    simpa [hx, hy] using hlast
  · rintro ⟨hfront, hlast⟩
    rw [hfront]
    congr 1
    rcases hx : l[q]? with _ | x
    · have hy : m[q]? = none := by
        rw [List.getElem?_eq_none_iff] at hx ⊢
        omega
      rw [hy]
    · obtain ⟨y, hy⟩ : ∃ y, m[q]? = some y := by
        have hq := (List.getElem?_eq_some_iff.mp hx).1
        exact ⟨_, List.getElem?_eq_getElem (by omega)⟩
      rw [hy]
      exact hlast x y hx hy

end Sequences

end WebServer
