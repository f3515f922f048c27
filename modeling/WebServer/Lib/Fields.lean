import Mathlib.Data.List.Basic
import Mathlib.Data.List.DropRight

/-!
# WebServer.Lib.Fields

HTTP header field lists: an ordered list of names and values in which a name may repeat and is
compared without case.

* `erase fs n` removes every field called `n`; `set fs n v` removes them and appends one.
* `values fs n` are the values of the fields called `n`, in order; `get` is the first of them.
* `filter_erase`, `filter_set`: an operation on `n` cannot be seen by a test that no field called
  `n` passes. The `values` lemmas are its instances.

A `Name` and a `Value` carry what a header line needs to be read back.
-/

namespace WebServer
namespace Http

abbrev Text := List UInt8

instance : LawfulBEq Text := inferInstance

/-- A fact about the members of a list by a test of each of them. There are instances that would try
all bytes or all characters. -/
theorem forall_of_all {α : Type*} {p : α → Prop} [DecidablePred p] {l : List α}
    (h : (l.all fun a => decide (p a)) = true) : ∀ a ∈ l, p a := fun a ha =>
  of_decide_eq_true (List.all_eq_true.mp h a ha)

def ascii (s : String) : Text := s.toList.map fun c => UInt8.ofNat c.toNat

def lower (b : UInt8) : UInt8 := if 65 ≤ b ∧ b ≤ 90 then b + 32 else b

def iequals (a b : Text) : Bool := a.map lower == b.map lower

def isSpace (b : UInt8) : Bool := b == 32 || b == 9

def trim (t : Text) : Text := (t.dropWhile isSpace).rdropWhile isSpace

/-- A visible character that does not end the name. -/
def isNameByte (b : UInt8) : Bool := 33 ≤ b && b ≤ 126 && b != 58

/-- A byte that does not end the line. -/
def isLineByte (b : UInt8) : Bool := b != 13 && b != 10

def IsName (t : Text) : Prop := t ≠ [] ∧ t.all isNameByte = true

def IsValue (t : Text) : Prop := t.all isLineByte = true ∧ trim t = t

instance (t : Text) : Decidable (IsName t) := inferInstanceAs (Decidable (_ ∧ _))
instance (t : Text) : Decidable (IsValue t) := inferInstanceAs (Decidable (_ ∧ _))

abbrev Name := { t : Text // IsName t }
abbrev Value := { t : Text // IsValue t }

structure HeaderField where
  name : Name
  value : Value
  deriving DecidableEq

def Value.empty : Value := ⟨[], by decide⟩

/-! ## Operations -/

def HeaderField.named (n : Text) (f : HeaderField) : Bool := iequals f.name n

def erase (fs : List HeaderField) (n : Text) : List HeaderField := fs.filter fun f => !f.named n

def set (fs : List HeaderField) (n : Name) (v : Value) : List HeaderField := erase fs n ++ [⟨n, v⟩]

def values (fs : List HeaderField) (n : Text) : List Value :=
  (fs.filter (HeaderField.named n)).map HeaderField.value

/-- The value of the first field called `n`, empty when there is none. -/
def get (fs : List HeaderField) (n : Text) : Value := (values fs n).headD Value.empty

theorem iequals_self (a : Text) : iequals a a = true := by simp [iequals]

theorem iequals_comm (a b : Text) : iequals a b = iequals b a := by
  unfold iequals
  exact Bool.beq_comm

theorem iequals_trans {a b c : Text} (h : iequals a b = true) : iequals a c = iequals b c := by
  simp only [iequals, beq_iff_eq] at h
  simp only [iequals, h]

/-- Two names that differ are not both the name of one field. -/
theorem named_ne {m n : Text} (h : iequals m n = false) {f : HeaderField}
    (hf : f.named n = true) : f.named m = false := by
  unfold HeaderField.named at *
  rw [iequals_trans hf, iequals_comm, h]

theorem filter_erase {p : HeaderField → Bool} {n : Text}
    (h : ∀ f, p f = true → f.named n = false) (fs : List HeaderField) :
    (erase fs n).filter p = fs.filter p := by
  rw [erase, List.filter_filter]
  refine List.filter_congr fun f _ => ?_
  cases hp : p f with
  | true => simp [h f hp]
  | false => rfl

theorem filter_set {p : HeaderField → Bool} {n : Name} (h : ∀ f, p f = true → f.named n = false)
    (fs : List HeaderField) (v : Value) : (set fs n v).filter p = fs.filter p := by
  have hp : p ⟨n, v⟩ = false := by
    by_contra hc
    have := h ⟨n, v⟩ (by simpa using hc)
    rw [HeaderField.named, iequals_self] at this
    cases this
  rw [set, List.filter_append, filter_erase h]
  simp [hp]

theorem values_erase_ne {m n : Text} (h : iequals m n = false) (fs : List HeaderField) :
    values (erase fs m) n = values fs n := by
  unfold values
  rw [filter_erase fun f hf => named_ne h hf]

theorem values_erase_eq {m n : Text} (h : iequals m n = true) (fs : List HeaderField) :
    values (erase fs m) n = [] := by
  have hm : ∀ f : HeaderField, f.named n = f.named m := by
    intro f
    unfold HeaderField.named
    rw [iequals_comm, ← iequals_trans h, iequals_comm]
  unfold values erase
  rw [List.filter_filter, List.map_eq_nil_iff, List.filter_eq_nil_iff]
  intro f _
  simp [hm f]

theorem values_set_ne {m : Name} {n : Text} (h : iequals m n = false) (fs : List HeaderField)
    (v : Value) : values (set fs m v) n = values fs n := by
  unfold values
  rw [filter_set fun f hf => named_ne h hf]

theorem values_set_self (fs : List HeaderField) (n : Name) (v : Value) :
    values (set fs n v) n = [v] := by
  have he := values_erase_eq (iequals_self n) fs
  unfold values at he ⊢
  rw [set, List.filter_append, List.map_append, he]
  simp [HeaderField.named, iequals_self]

/-- Erasing a list of names in turn keeps what none of them names. -/
theorem foldl_erase (names : List Text) (fs : List HeaderField) :
    names.foldl erase fs = fs.filter fun f => names.all fun n => !f.named n := by
  induction names generalizing fs with
  | nil => simp
  | cons n names ih =>
    rw [List.foldl_cons, ih, erase, List.filter_filter]
    exact List.filter_congr fun f _ => by rw [List.all_cons, Bool.and_comm]

/-- Erasing names that the test does not see. -/
theorem filter_erase_all {p : HeaderField → Bool} {names : List Text}
    (h : ∀ f, p f = true → ∀ n ∈ names, f.named n = false) (fs : List HeaderField) :
    (names.foldl erase fs).filter p = fs.filter p := by
  induction names generalizing fs with
  | nil => rfl
  | cons n names ih =>
    rw [List.foldl_cons, ih fun f hf m hm => h f hf m (List.mem_cons_of_mem n hm),
      filter_erase fun f hf => h f hf n List.mem_cons_self]

theorem filter_foldl_erase {p : HeaderField → Bool} {fs gs : List HeaderField}
    (h : gs.filter p = fs.filter p) (names : List Text) :
    (names.foldl erase gs).filter p = (names.foldl erase fs).filter p := by
  rw [foldl_erase, foldl_erase, List.filter_comm, h, List.filter_comm]

/-! ## Several fields set in turn -/

/-- `set` of every field of the list. -/
def setAll (fs written : List HeaderField) : List HeaderField :=
  written.foldl (fun fs f => set fs f.name f.value) fs

/-- No name stands twice. -/
def Distinct (written : List HeaderField) : Prop :=
  written.Pairwise fun f g => f.named g.name.1 = false

theorem mem_erase {f : HeaderField} {fs : List HeaderField} {n : Text} :
    f ∈ erase fs n ↔ f ∈ fs ∧ f.named n = false := by
  simp [erase]

theorem mem_set {f g : HeaderField} {fs : List HeaderField} :
    f ∈ set fs g.name g.value ↔ f ∈ fs ∧ f.named g.name.1 = false ∨ f = g := by
  rw [set, List.mem_append, mem_erase, List.mem_singleton]

theorem mem_setAll {f : HeaderField} {fs written : List HeaderField} (hd : Distinct written) :
    f ∈ setAll fs written ↔
      f ∈ fs ∧ (∀ g ∈ written, f.named g.name.1 = false) ∨ f ∈ written := by
  induction written generalizing fs with
  | nil => simp [setAll]
  | cons g written ih =>
    obtain ⟨hg, hd⟩ := List.pairwise_cons.mp hd
    rw [setAll, List.foldl_cons, ← setAll, ih hd, mem_set]
    constructor
    · rintro (⟨⟨hf, hfg⟩ | rfl, hrest⟩ | hf)
      · exact .inl ⟨hf, by simpa using ⟨hfg, hrest⟩⟩
      · exact .inr (by simp)
      · exact .inr (by simp [hf])
    · rintro (⟨hf, hall⟩ | hf)
      · simp only [List.mem_cons, forall_eq_or_imp] at hall
        exact .inl ⟨.inl ⟨hf, hall.1⟩, hall.2⟩
      · rcases List.mem_cons.mp hf with rfl | hf
        · exact .inl ⟨.inr rfl, hg⟩
        · exact .inr hf

theorem values_setAll_ne {fs written : List HeaderField} {n : Text}
    (h : ∀ g ∈ written, g.named n = false) : values (setAll fs written) n = values fs n := by
  induction written generalizing fs with
  | nil => rfl
  | cons g written ih =>
    rw [setAll, List.foldl_cons, ← setAll, ih fun g' hg' => h g' (by simp [hg']),
      values_set_ne (h g (by simp))]

theorem values_setAll {f : HeaderField} {fs written : List HeaderField} (hd : Distinct written)
    (hf : f ∈ written) : values (setAll fs written) f.name.1 = [f.value] := by
  induction written generalizing fs with
  | nil => cases hf
  | cons g written ih =>
    obtain ⟨hg, hd⟩ := List.pairwise_cons.mp hd
    rw [setAll, List.foldl_cons, ← setAll]
    rcases List.mem_cons.mp hf with rfl | hf
    · rw [values_setAll_ne fun g' hg' => ?_, values_set_self]
      rw [HeaderField.named, iequals_comm]
      exact hg g' hg'
    · exact ih hd hf

end Http
end WebServer
