import WebServer.Lib.Fields

/-!
# WebServer.Lib.Reference

URI references: the scheme, the authority, and the origin that a reference denotes for a client that
is at `base`.

* `authority` is what stands between `//` and the next `/`, `?` or `#`.
* `segment_append_closed`, `segment_append_opened`: text that is appended cannot be seen in an
  authority that has ended already, or that it ends itself.
* `resolve_absolute`, `resolve_network`, `resolve_path`: the origin by the form of the reference.
-/

namespace WebServer
namespace Http

namespace Reference

/-- The authority ends before one of these. -/
def isDelimiter (b : UInt8) : Bool := b == 47 || b == 63 || b == 35

def isSchemeByte (b : UInt8) : Bool := !isDelimiter b && b != 58

def scheme (t : Text) : Option Text :=
  let name := t.takeWhile isSchemeByte
  if name ≠ [] ∧ t[name.length]? = some 58 then some name else none

/-- The reference without its scheme. -/
def hierarchy (t : Text) : Text :=
  match scheme t with
  | some name => t.drop (name.length + 1)
  | none => t

def segment (t : Text) : Text := t.takeWhile fun b => !isDelimiter b

def authority (t : Text) : Option Text :=
  match hierarchy t with
  | 47 :: 47 :: rest => some (segment rest)
  | _ => none

structure Origin where
  scheme : Text
  authority : Option Text
  deriving DecidableEq

def resolve (base : Origin) (t : Text) : Origin :=
  match scheme t, authority t with
  | some s, a => ⟨s, a⟩
  | none, some a => ⟨base.scheme, some a⟩
  | none, none => base

/-- A network-path reference. -/
def isNetworkPath (t : Text) : Bool := ascii "//" <+: t

/-! ## Appending -/

theorem segment_append_closed {t : Text} (h : ∃ b ∈ t, isDelimiter b = true) (x : Text) :
    segment (t ++ x) = segment t := by
  induction t with
  | nil => simp at h
  | cons a t ih =>
    simp only [segment, List.cons_append, List.takeWhile_cons] at ih ⊢
    cases ha : isDelimiter a with
    | true => rfl
    | false =>
      obtain ⟨b, hb, hd⟩ := h
      rcases List.mem_cons.mp hb with rfl | hb
      · rw [ha] at hd; cases hd
      · simp [ih ⟨b, hb, hd⟩]

theorem segment_append_opened {x : Text} (h : ∀ b ∈ x.head?, isDelimiter b = true) (t : Text) :
    segment (t ++ x) = segment t := by
  induction t with
  | nil =>
    cases x with
    | nil => rfl
    | cons b x => simp [segment, h b (by simp)]
  | cons a t ih =>
    simp only [segment, List.cons_append, List.takeWhile_cons] at ih ⊢
    rw [ih]

theorem segment_of_plain {t : Text} (h : ∀ b ∈ t, isDelimiter b = false) : segment t = t := by
  rw [segment, List.takeWhile_eq_self_iff]
  intro b hb
  simp [h b hb]

/-! ## The three forms -/

theorem scheme_colon {name : Text} (hne : name ≠ []) (hname : name.all isSchemeByte = true)
    (rest : Text) : scheme (name ++ 58 :: rest) = some name := by
  have htake : (name ++ 58 :: rest).takeWhile isSchemeByte = name := by
    rw [List.takeWhile_append_of_pos (by simpa using hname)]
    simp [isSchemeByte]
  simp [scheme, htake, hne]

theorem scheme_slash (rest : Text) : scheme (47 :: rest) = none := by
  simp [scheme, isSchemeByte, isDelimiter]

theorem authority_absolute {name : Text} (hne : name ≠ []) (hname : name.all isSchemeByte = true)
    (rest : Text) : authority (name ++ 58 :: 47 :: 47 :: rest) = some (segment rest) := by
  have hrest : hierarchy (name ++ 58 :: 47 :: 47 :: rest) = 47 :: 47 :: rest := by
    rw [hierarchy, scheme_colon hne hname]
    simp
  simp [authority, hrest]

theorem resolve_absolute {name : Text} (hne : name ≠ []) (hname : name.all isSchemeByte = true)
    (base : Origin) (rest : Text) :
    resolve base (name ++ 58 :: 47 :: 47 :: rest) = ⟨name, some (segment rest)⟩ := by
  rw [resolve, scheme_colon hne hname, authority_absolute hne hname]

theorem authority_network (rest : Text) : authority (47 :: 47 :: rest) = some (segment rest) := by
  simp [authority, hierarchy, scheme_slash]

theorem resolve_network (base : Origin) (rest : Text) :
    resolve base (47 :: 47 :: rest) = ⟨base.scheme, some (segment rest)⟩ := by
  rw [resolve, scheme_slash, authority_network]

/-- A path does not leave the origin. -/
theorem resolve_path {rest : Text} (h : rest.head? ≠ some 47) (base : Origin) :
    resolve base (47 :: rest) = base := by
  have hauthority : authority (47 :: rest) = none := by
    rw [authority, hierarchy, scheme_slash]
    cases rest with
    | nil => rfl
    | cons b rest =>
      split
      · simp_all
      · rfl
  rw [resolve, scheme_slash, hauthority]

end Reference

end Http
end WebServer
