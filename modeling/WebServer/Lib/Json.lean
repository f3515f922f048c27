import Mathlib.Algebra.Group.Int.Defs
import Mathlib.Data.String.Basic
import WebServer.Lib.Result

/-!
# WebServer.Lib.Json

JSON values, their accessors and codecs.

* `Json φ`: a value whose numbers are integers or floats of type `φ`. An object lists its fields in
  the order of their keys.
* `Canonical`: the values that a document can hold. Keys are in order and distinct, and integers
  fit into 64 bits, with or without a sign.
* `field`, `value`, `getString`, …: access with the errors of the accessors.
* `Codec φ`: texts to values and back, with the laws of a codec.
-/

namespace WebServer

inductive Json (φ : Type) where
  | null
  | bool (b : Bool)
  | int (i : Int)
  | float (x : φ)
  | str (s : String)
  | arr (items : List (Json φ))
  | obj (fields : List (String × Json φ))

namespace Json

variable {φ : Type}

inductive Canonical : Json φ → Prop where
  | null : Canonical .null
  | bool {b : Bool} : Canonical (.bool b)
  | int {i : Int} : -2 ^ 63 ≤ i → i < 2 ^ 64 → Canonical (.int i)
  | float {x : φ} : Canonical (.float x)
  | str {s : String} : Canonical (.str s)
  | arr {items : List (Json φ)} : (∀ v ∈ items, Canonical v) → Canonical (.arr items)
  | obj {fields : List (String × Json φ)} : (fields.map Prod.fst).Pairwise (· < ·) →
      (∀ f ∈ fields, Canonical f.2) → Canonical (.obj fields)

/-! ## Objects -/

/-- The field is put in its place, or its value is replaced. -/
def setField (key : String) (v : Json φ) : List (String × Json φ) → List (String × Json φ)
  | [] => [(key, v)]
  | f :: fields =>
    if key < f.1 then (key, v) :: f :: fields
    else if key = f.1 then (key, v) :: fields
    else f :: setField key v fields

/-- An object with these fields. -/
def ofFields (fields : List (String × Json φ)) : Json φ :=
  .obj (fields.foldl (fun fs f => setField f.1 f.2 fs) [])

theorem lookup_setField (key k : String) (v : Json φ) (fields : List (String × Json φ)) :
    (setField key v fields).lookup k = if k = key then some v else fields.lookup k := by
  induction fields with
  | nil =>
    by_cases hk : k = key
    · simp [setField, hk]
    · simp [setField, hk, List.lookup_cons, beq_eq_false_iff_ne.mpr hk]
  | cons f fields ih =>
    obtain ⟨k', v'⟩ := f
    simp only [setField]
    split
    · by_cases hk : k = key
      · simp [hk]
      · simp [hk, List.lookup_cons, beq_eq_false_iff_ne.mpr hk]
    · split
      · rename_i heq
        subst heq
        by_cases hk : k = key
        · simp [hk]
        · simp [hk, List.lookup_cons, beq_eq_false_iff_ne.mpr hk]
      · rename_i hne
        rw [List.lookup_cons, List.lookup_cons, ih]
        by_cases hk : k = key
        · subst hk
          simp [beq_eq_false_iff_ne.mpr hne]
        · simp [hk]

theorem mem_setField {key : String} {v : Json φ} {fields : List (String × Json φ)}
    {f : String × Json φ} (h : f ∈ setField key v fields) : f = (key, v) ∨ f ∈ fields := by
  induction fields with
  | nil => exact .inl (List.mem_singleton.mp h)
  | cons g fields ih =>
    simp only [setField] at h
    split at h
    · exact (List.mem_cons.mp h).imp id id
    · split at h
      · exact (List.mem_cons.mp h).imp id (List.mem_cons_of_mem g)
      · rcases List.mem_cons.mp h with rfl | h
        · exact .inr (by simp)
        · exact (ih h).imp id (List.mem_cons_of_mem g)

theorem pairwise_setField {key : String} {v : Json φ} {fields : List (String × Json φ)}
    (h : (fields.map Prod.fst).Pairwise (· < ·)) :
    ((setField key v fields).map Prod.fst).Pairwise (· < ·) := by
  induction fields with
  | nil => simp [setField]
  | cons f fields ih =>
    rw [List.map_cons, List.pairwise_cons] at h
    simp only [setField]
    split
    · rename_i hlt
      simp only [List.map_cons, List.pairwise_cons, List.mem_cons]
      refine ⟨?_, h⟩
      rintro k (rfl | hk)
      · exact hlt
      · exact hlt.trans (h.1 k hk)
    · split
      · rename_i heq
        rw [List.map_cons, List.pairwise_cons, heq]
        exact h
      · rename_i hnlt hne
        rw [List.map_cons, List.pairwise_cons]
        refine ⟨fun k hk => ?_, ih h.2⟩
        obtain ⟨g, hg, rfl⟩ := List.mem_map.mp hk
        rcases mem_setField hg with rfl | hg
        · exact lt_of_le_of_ne (not_lt.mp hnlt) (Ne.symm hne)
        · exact h.1 g.1 (List.mem_map_of_mem hg)

/-- What was set before shows where nothing is set later. -/
theorem lookup_foldl_setField (fields base : List (String × Json φ)) (k : String)
    (h : (fields.map Prod.fst).Nodup) :
    (fields.foldl (fun fs f => setField f.1 f.2 fs) base).lookup k =
      (fields.lookup k).or (base.lookup k) := by
  induction fields generalizing base with
  | nil => simp
  | cons f fields ih =>
    obtain ⟨key, v⟩ := f
    rw [List.map_cons, List.nodup_cons] at h
    rw [List.foldl_cons, ih _ h.2, lookup_setField, List.lookup_cons]
    by_cases hk : k = key
    · have hnone : fields.lookup key = none := by
        rw [List.lookup_eq_none_iff]
        intro g hg
        exact bne_iff_ne.mpr fun hkey => h.1 (List.mem_map.mpr ⟨g, hg, hkey.symm⟩)
      simp [hk, hnone]
    · simp [hk, beq_eq_false_iff_ne.mpr hk]

/-- With distinct keys a field that is there is the one that is found. -/
theorem lookup_of_mem {fields : List (String × Json φ)} (h : (fields.map Prod.fst).Nodup)
    {f : String × Json φ} (hf : f ∈ fields) : fields.lookup f.1 = some f.2 := by
  induction fields with
  | nil => cases hf
  | cons g fields ih =>
    obtain ⟨key, v⟩ := g
    rw [List.map_cons, List.nodup_cons] at h
    rw [List.lookup_cons]
    rcases List.mem_cons.mp hf with rfl | hf
    · simp
    · have hne : f.1 ≠ key := fun heq => h.1 (List.mem_map.mpr ⟨f, hf, heq⟩)
      rw [beq_eq_false_iff_ne.mpr hne]
      exact ih h.2 hf

theorem canonical_ofFields {fields : List (String × Json φ)} (h : ∀ f ∈ fields, Canonical f.2) :
    Canonical (ofFields fields) := by
  have hfold : ∀ base : List (String × Json φ), (base.map Prod.fst).Pairwise (· < ·) →
      (∀ f ∈ base, Canonical f.2) →
      ((fields.foldl (fun fs f => setField f.1 f.2 fs) base).map Prod.fst).Pairwise (· < ·) ∧
        ∀ f ∈ fields.foldl (fun fs f => setField f.1 f.2 fs) base, Canonical f.2 := by
    induction fields with
    | nil => exact fun base hsorted hall => ⟨hsorted, hall⟩
    | cons f fields ih =>
      intro base hsorted hall
      refine ih (fun g hg => h g (by simp [hg])) _ (pairwise_setField hsorted) fun g hg => ?_
      rcases mem_setField hg with rfl | hg
      · exact h f (by simp)
      · exact hall g hg
  obtain ⟨hsorted, hall⟩ := hfold [] (by simp) (by simp)
  exact .obj hsorted hall

theorem setField_last {key : String} {v : Json φ} {fields : List (String × Json φ)}
    (h : ∀ f ∈ fields, f.1 < key) : setField key v fields = fields ++ [(key, v)] := by
  induction fields with
  | nil => rfl
  | cons f fields ih =>
    have hlt : f.1 < key := h f (by simp)
    rw [setField, if_neg (not_lt.mpr hlt.le), if_neg (ne_of_gt hlt),
      ih fun g hg => h g (by simp [hg]), List.cons_append]

/-- Fields that are in order are left as they are. -/
theorem ofFields_sorted {fields : List (String × Json φ)}
    (h : (fields.map Prod.fst).Pairwise (· < ·)) : ofFields fields = .obj fields := by
  have hfold : ∀ base : List (String × Json φ), (∀ f ∈ base, ∀ g ∈ fields, f.1 < g.1) →
      fields.foldl (fun fs f => setField f.1 f.2 fs) base = base ++ fields := by
    induction fields with
    | nil => simp
    | cons f fields ih =>
      intro base hbase
      rw [List.map_cons, List.pairwise_cons] at h
      rw [List.foldl_cons, setField_last fun g hg => hbase g hg f (by simp), ih h.2,
        List.append_assoc, List.singleton_append]
      intro g hg f' hf'
      rcases List.mem_append.mp hg with hg | hg
      · exact hbase g hg f' (by simp [hf'])
      · rw [List.mem_singleton.mp hg]
        exact h.1 f'.1 (List.mem_map_of_mem hf')
  rw [ofFields, hfold [] (by simp), List.nil_append]

/-! ## Access -/

def typeName : Json φ → String
  | .null => "null"
  | .bool _ => "boolean"
  | .int _ => "number"
  | .float _ => "number"
  | .str _ => "string"
  | .arr _ => "array"
  | .obj _ => "object"

def isArray : Json φ → Bool
  | .arr _ => true
  | _ => false

def isObject : Json φ → Bool
  | .obj _ => true
  | _ => false

def typeError (expected : String) (v : Json φ) : String :=
  "[json.exception.type_error.302] type must be " ++ expected ++ ", but is " ++ v.typeName

/-- `find(key)`; nothing is found in a value that is no object. -/
def find? (v : Json φ) (key : String) : Option (Json φ) :=
  match v with
  | .obj fields => fields.lookup key
  | _ => none

def contains (v : Json φ) (key : String) : Bool := (v.find? key).isSome

/-- `at(key)` -/
def field (v : Json φ) (key : String) : Except String (Json φ) :=
  match v with
  | .obj fields =>
    match fields.lookup key with
    | some x => .ok x
    | none => .error ("[json.exception.out_of_range.403] key '" ++ key ++ "' not found")
  | _ => .error ("[json.exception.type_error.304] cannot use at() with " ++ v.typeName)

/-- `value(key, fallback)`: the type of the fallback decides how the value is read. -/
def value {α : Type} (get : Json φ → Except String α) (v : Json φ) (key : String) (fallback : α) :
    Except String α :=
  match v with
  | .obj fields =>
    match fields.lookup key with
    | some x => get x
    | none => .ok fallback
  | _ => .error ("[json.exception.type_error.306] cannot use value() with " ++ v.typeName)

def getString : Json φ → Except String String
  | .str s => .ok s
  | v => .error (typeError "string" v)

def getBool : Json φ → Except String Bool
  | .bool b => .ok b
  | v => .error (typeError "boolean" v)

def getItems : Json φ → Except String (List (Json φ))
  | .arr items => .ok items
  | v => .error (typeError "array" v)

def getStrings (v : Json φ) : Except String (List String) := do
  let items ← getItems v
  items.mapM getString

/-! The accesses of a caller that throws `raise` of the message. -/

section Raised

variable {ε : Type} (raise : String → ε) (v : Json φ) (key : String)

/-- `v.at(key).get<std::string>()` -/
def stringAt : Except ε String := (v.field key >>= getString).mapError raise

/-- `v.value(key, fallback)` -/
def stringOr (fallback : String) : Except ε String :=
  (v.value getString key fallback).mapError raise

def boolOr (fallback : Bool) : Except ε Bool := (v.value getBool key fallback).mapError raise

end Raised

/-- A number, before it is cast; `truncate` is the conversion of a float. -/
def getNumber (truncate : φ → Int) : Json φ → Except String Int
  | .int i => .ok i
  | .float x => .ok (truncate x)
  | v => .error (typeError "number" v)

/-- The 64-bit type of the library itself takes numbers only. -/
def getInt64 (truncate : φ → Int) (v : Json φ) : Except String Int :=
  (getNumber truncate v).map fun i => i.bmod (2 ^ 64)

/-- Other arithmetic types take booleans, too. -/
def getArithmetic (truncate : φ → Int) : Json φ → Except String Int
  | .bool b => .ok (if b then 1 else 0)
  | v => getNumber truncate v

def getInt (truncate : φ → Int) (v : Json φ) : Except String Int :=
  (getArithmetic truncate v).map fun i => i.bmod (2 ^ 32)

def getUInt32 (truncate : φ → Int) (v : Json φ) : Except String Nat :=
  (getArithmetic truncate v).map fun i => (i % 2 ^ 32).toNat

def getUInt64 (truncate : φ → Int) (v : Json φ) : Except String Nat :=
  (getArithmetic truncate v).map fun i => (i % 2 ^ 64).toNat

/-- What a loop over the value visits. A value that is no container counts as its own element. -/
def elements : Json φ → List (Json φ)
  | .null => []
  | .arr items => items
  | .obj fields => fields.map Prod.snd
  | v => [v]

section Fields

variable {fields : List (String × Json φ)} {v x : Json φ} {key : String}

theorem find?_ofFields (h : (fields.map Prod.fst).Nodup) :
    ∀ f ∈ fields, (ofFields fields).find? f.1 = some f.2 := by
  intro f hf
  change (fields.foldl (fun fs f => setField f.1 f.2 fs) []).lookup f.1 = some f.2
  rw [lookup_foldl_setField fields [] f.1 h, List.lookup_nil, Option.or_none]
  exact lookup_of_mem h hf

theorem field_of_find? (h : v.find? key = some x) : v.field key = .ok x := by
  cases v with
  | obj fields => simp only [field, show fields.lookup key = some x from h]
  | _ => cases h

theorem value_of_find? {α : Type} {get : Json φ → Except String α} {fallback : α}
    (h : v.find? key = some x) : v.value get key fallback = get x := by
  cases v with
  | obj fields => simp only [value, show fields.lookup key = some x from h]
  | _ => cases h

theorem getString_field {s : String} (h : v.find? key = some (.str s)) :
    (v.field key >>= getString) = .ok s := by
  rw [field_of_find? h]
  rfl

theorem getString_value {s fallback : String} (h : v.find? key = some (.str s)) :
    v.value getString key fallback = .ok s := value_of_find? h

theorem getBool_value {b fallback : Bool} (h : v.find? key = some (.bool b)) :
    v.value getBool key fallback = .ok b := value_of_find? h

theorem getStrings_map_str (l : List String) :
    getStrings (.arr (l.map .str) : Json φ) = .ok l := by
  change (l.map (Json.str (φ := φ))).mapM getString = .ok l
  induction l with
  | nil => rfl
  | cons s l ih =>
    rw [List.map_cons, List.mapM_cons, ih]
    rfl

theorem getStrings_field {l : List String} (h : v.find? key = some (.arr (l.map .str))) :
    (v.field key >>= getStrings) = .ok l := by
  rw [field_of_find? h]
  exact getStrings_map_str l

theorem getStrings_value {l fallback : List String} (h : v.find? key = some (.arr (l.map .str))) :
    v.value getStrings key fallback = .ok l := (value_of_find? h).trans (getStrings_map_str l)

theorem isObject_ofFields (fields : List (String × Json φ)) : (ofFields fields).isObject = true := rfl

theorem canonical_strings (l : List String) : Canonical (.arr (l.map .str) : Json φ) := by
  refine .arr fun v hv => ?_
  obtain ⟨s, -, rfl⟩ := List.mem_map.mp hv
  exact .str

end Fields

end Json

/-! ## Codecs -/

/-- A codec for JSON texts. Every text that is accepted gives a canonical value, and every canonical
value is read back from its text, compact or indented. -/
structure Codec (φ : Type) where
  parse : String → Except String (Json φ)
  dump : Json φ → String
  dumpIndented : Json φ → String
  truncate : φ → Int
  parse_canonical : ∀ {t v}, parse t = .ok v → v.Canonical
  parse_dump : ∀ {v}, v.Canonical → parse (dump v) = .ok v
  parse_dumpIndented : ∀ {v}, v.Canonical → parse (dumpIndented v) = .ok v
  parse_empty : ∀ v, parse "" ≠ .ok v

end WebServer
