import Mathlib.Algebra.BigOperators.Group.List.Basic
import Mathlib.Algebra.GroupWithZero.Nat
import Mathlib.Data.List.DropRight

/-!
# WebServer.Lib.Segments

A log kept in segments, the newest first. An entry that does not fit into the newest segment opens a
new one, and then the segments after the first `count` are given up.

* `write_cases`: what a write does.
* `Filled`: each segment keeps to the limit or has a single entry, whatever the sizes are.
* `collect_eq`: the segments can be read from the newest on, each through a window, until there are
  enough entries.
-/

namespace WebServer
namespace Segments

variable {α : Type} {size : α → Nat} {limit count : Nat}

/-! ## Writes -/

def total (size : α → Nat) (segment : List α) : Nat := (segment.map size).sum

@[simp] theorem total_nil : total size [] = 0 := rfl

@[simp] theorem total_append (segment more : List α) :
    total size (segment ++ more) = total size segment + total size more := by
  simp [total]

@[simp] theorem total_singleton (a : α) : total size [a] = size a := by
  simp [total]

theorem eq_nil_of_total (hsize : ∀ a, 0 < size a) {segment : List α} (h : total size segment = 0) :
    segment = [] := by
  cases segment with
  | nil => rfl
  | cons a rest =>
    have := hsize a
    rw [total, List.map_cons, List.sum_cons] at h
    omega

/-- Is a new segment opened for `a`? -/
def Full (size : α → Nat) (limit : Nat) (newest : List α) (a : α) : Prop :=
  total size newest ≠ 0 ∧ limit < total size newest + size a

instance (newest : List α) (a : α) : Decidable (Full size limit newest a) :=
  inferInstanceAs (Decidable (_ ∧ _))

def write (size : α → Nat) (limit count : Nat) : List (List α) → α → List (List α)
  | [], a => [[a]]
  | newest :: older, a =>
    if Full size limit newest a then [a] :: (newest :: older).take count
    else (newest ++ [a]) :: older

/-- The entries, the oldest first. -/
def inOrder (segments : List (List α)) : List α := segments.reverse.flatten

@[simp] theorem inOrder_nil : inOrder ([] : List (List α)) = [] := rfl

@[simp] theorem inOrder_cons (segment : List α) (older : List (List α)) :
    inOrder (segment :: older) = inOrder older ++ segment := by
  simp [inOrder]

theorem inOrder_append (newer older : List (List α)) :
    inOrder (newer ++ older) = inOrder older ++ inOrder newer := by
  simp [inOrder]

theorem mem_inOrder {segments : List (List α)} {a : α} :
    a ∈ inOrder segments ↔ ∃ segment ∈ segments, a ∈ segment := by
  simp [inOrder]

/-- An entry is added after all others. Entries are given up only with the last segment, and only if
there are more than `count` of them. -/
theorem write_cases (size : α → Nat) (limit : Nat) {newest : List α} {older : List (List α)} (a : α)
    (hlength : older.length ≤ count) :
    (inOrder (write size limit count (newest :: older) a) = inOrder (newest :: older) ++ [a]) ∨
    ∃ oldest, (newest :: older)[count]? = some oldest ∧ Full size limit newest a ∧
      ∃ kept, inOrder (newest :: older) = oldest ++ kept ∧
        inOrder (write size limit count (newest :: older) a) = kept ++ [a] := by
  by_cases hfull : Full size limit newest a
  · cases hlast : (newest :: older)[count]? with
    | none =>
      left
      rw [write, if_pos hfull, inOrder_cons, List.take_of_length_le (List.getElem?_eq_none_iff.mp hlast)]
    | some oldest =>
      right
      refine ⟨oldest, rfl, hfull, inOrder ((newest :: older).take count), ?_, ?_⟩
      · obtain ⟨h, hget⟩ := List.getElem?_eq_some_iff.mp hlast
        have hdrop : (newest :: older).drop count = [oldest] := by
          rw [List.drop_eq_getElem_cons h, hget, List.drop_of_length_le (by simpa using hlength)]
        conv_lhs => rw [← List.take_append_drop count (newest :: older), hdrop, inOrder_append]
        simp
      · rw [write, if_pos hfull, inOrder_cons]
  · left
    rw [write, if_neg hfull, inOrder_cons, inOrder_cons, List.append_assoc]

/-- A segment that keeps to the limit, or has one entry. -/
def Filled (size : α → Nat) (limit : Nat) (segment : List α) : Prop :=
  total size segment ≤ limit ∨ ∃ a, segment = [a]

theorem filled_write (hsize : ∀ a, 0 < size a) {segments : List (List α)}
    (h : ∀ segment ∈ segments, Filled size limit segment) (a : α) :
    ∀ segment ∈ write size limit count segments a, Filled size limit segment := by
  cases segments with
  | nil => simp [write, Filled]
  | cons newest older =>
    rw [write]
    split
    · rintro segment (_ | ⟨_, hmem⟩)
      · exact .inr ⟨a, rfl⟩
      · exact h _ (List.mem_of_mem_take hmem)
    · rename_i hfull
      rintro segment (_ | ⟨_, hmem⟩)
      · by_cases hempty : total size newest = 0
        · rw [eq_nil_of_total hsize hempty]
          exact .inr ⟨a, rfl⟩
        · left
          rw [total_append, total_singleton]
          exact Nat.not_lt.mp fun hlt => hfull ⟨hempty, hlt⟩
      · exact h _ (List.mem_cons_of_mem _ hmem)

/-! ## The latest entries -/

theorem rtake_append (l m : List α) (n : Nat) :
    (l ++ m).rtake n = l.rtake (n - m.length) ++ m.rtake n := by
  rw [List.rtake_eq_reverse_take_reverse, List.rtake_eq_reverse_take_reverse,
    List.rtake_eq_reverse_take_reverse, List.reverse_append, List.take_append, List.reverse_append,
    List.length_reverse]

theorem rtake_of_length_le {l : List α} {n : Nat} (h : l.length ≤ n) : l.rtake n = l := by
  rw [List.rtake, Nat.sub_eq_zero_of_le h, List.drop_zero]

theorem length_rtake (l : List α) (n : Nat) : (l.rtake n).length = min n l.length := by
  rw [List.rtake, List.length_drop]
  omega

/-- An entry goes in at the back, and one comes out at the front if there are too many. -/
def push (n : Nat) (window : List α) (a : α) : List α :=
  if n < (window ++ [a]).length then (window ++ [a]).tail else window ++ [a]

theorem push_rtake (n : Nat) (l : List α) (a : α) : push n (l.rtake n) a = (l ++ [a]).rtake n := by
  cases n with
  | zero => simp [push]
  | succ n =>
    rw [List.rtake_concat_succ, push]
    by_cases h : l.length ≤ n
    · rw [rtake_of_length_le (by omega), rtake_of_length_le h, if_neg (by simpa using h)]
    · rw [if_pos (by rw [List.length_append, length_rtake, List.length_singleton]; omega)]
      rw [List.rtake, List.rtake, List.tail_append_of_ne_nil (by simp; omega), List.tail_drop]
      congr 2
      omega

/-- A window that a list is pushed through holds the end of the list. -/
theorem foldl_push (n : Nat) (l m : List α) :
    m.foldl (push n) (l.rtake n) = (l ++ m).rtake n := by
  induction m generalizing l with
  | nil => simp
  | cons a m ih =>
    rw [List.foldl_cons, push_rtake, ih, List.append_assoc, List.singleton_append]

/-- Segments are read while there are fewer than `n` entries. -/
def collect (n : Nat) (entries : List α) : List (List α) → List α
  | [] => entries
  | segment :: older =>
    if entries.length < n then collect n (segment.rtake (n - entries.length) ++ entries) older
    else entries

theorem collect_eq (n : Nat) (l : List α) (segments : List (List α)) :
    collect n (l.rtake n) segments = (inOrder segments ++ l).rtake n := by
  induction segments generalizing l with
  | nil => rfl
  | cons segment older ih =>
    rw [collect, inOrder_cons, List.append_assoc]
    split
    · rename_i h
      have hshort : l.length ≤ n := by
        rw [length_rtake] at h
        omega
      rw [← ih, rtake_append segment, rtake_of_length_le hshort]
    · rename_i h
      have hlong : n ≤ l.length := by
        rw [length_rtake] at h
        omega
      rw [← List.append_assoc, rtake_append, Nat.sub_eq_zero_of_le hlong, List.rtake_zero,
        List.nil_append]

end Segments
end WebServer
