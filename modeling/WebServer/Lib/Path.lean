import Mathlib.Data.List.Infix
import WebServer.Lib.Fields

/-!
# WebServer.Lib.Path

Paths of `std::filesystem` on two platforms, by their parts: a root name (`C:`, `//server`), a root
directory and the names after it. A path that ends in a separator has an empty last name.

* `Path.ofText` takes a text apart, `append` is `operator/`: what is appended replaces the path when
  it has a root of its own.
* `normalNames` are the names of `lexically_normal`, `Under` says that one path lies below another.
* `append_under`: a path without a root of its own and without `..` stays below what it is appended
  to.
-/

namespace WebServer
namespace Fs

open Http (Text ascii)

inductive Platform where
  | posix
  | windows
  deriving DecidableEq

def isSeparator : Platform → UInt8 → Bool
  | .posix, b => b == 47
  | .windows, b => b == 47 || b == 92

structure Path where
  rootName : Text
  rootDirectory : Bool
  names : List Text
  deriving DecidableEq

/-! ## The parts of a text -/

def isDriveLetter (b : UInt8) : Bool := (65 ≤ b && b ≤ 90) || (97 ≤ b && b ≤ 122)

/-- `X:` -/
def hasDrive : Text → Bool
  | d :: 58 :: _ => isDriveLetter d
  | _ => false

/-- `\\?\`, `\\.\` or `\??\`, not followed by a separator. -/
def hasDevice : Text → Bool
  | a :: b :: c :: d :: rest =>
    isSeparator .windows a && isSeparator .windows d && !rest.head?.any (isSeparator .windows) &&
      ((isSeparator .windows b && (c == 63 || c == 46)) || (b == 63 && c == 63))
  | _ => false

/-- `\\server` -/
def hasServer : Text → Bool
  | a :: b :: c :: _ =>
    isSeparator .windows a && isSeparator .windows b && !isSeparator .windows c
  | _ => false

def rootNameLength : Platform → Text → Nat
  | .posix, _ => 0
  | .windows, t =>
    if hasDrive t then 2
    else if hasDevice t then 3
    else if hasServer t then 3 + ((t.drop 3).takeWhile fun b => !isSeparator .windows b).length
    else 0

/-- Separators in a row count once; one at the end leaves an empty name. -/
def relativeNames (plat : Platform) (t : Text) : List Text :=
  let pieces := t.splitOnP (isSeparator plat)
  let inner := pieces.dropLast.filter fun n => n ≠ []
  let last := pieces.getLastD []
  if inner = [] ∧ last = [] then [] else inner ++ [last]

def Path.ofText (plat : Platform) (t : Text) : Path :=
  let rest := t.drop (rootNameLength plat t)
  { rootName := t.take (rootNameLength plat t)
    rootDirectory := rest.head?.any (isSeparator plat)
    names := relativeNames plat rest }

/-- A drive alone does not make a path absolute, any other root name does. -/
def Path.isAbsolute : Platform → Path → Bool
  | .posix, p => p.rootDirectory
  | .windows, p => if hasDrive p.rootName then p.rootDirectory else p.rootName ≠ []

def Path.filename (p : Path) : Text := p.names.getLastD []

/-- From the last dot on, unless the name begins there. What follows a colon is not part of the name
on Windows. -/
def extension (plat : Platform) (p : Path) : Text :=
  let name : Text := match plat with
    | .posix => p.filename
    | .windows => p.filename.takeWhile fun b => b ≠ 58
  let tail := (name.reverse.takeWhile fun b => b ≠ 46).reverse
  if name = ascii "." ∨ name = ascii ".." ∨ name.length ≤ tail.length + 1 then [] else 46 :: tail

/-! ## Appending -/

def joinNames (names more : List Text) : List Text :=
  let base := if names.getLast? = some [] then names.dropLast else names
  if more = [] ∧ base ≠ [] then base ++ [[]] else base ++ more

/-- The appended path has a root of its own. -/
def replaces (plat : Platform) (p q : Path) : Bool :=
  q.isAbsolute plat || (q.rootName ≠ [] && q.rootName ≠ p.rootName)

/-- A path without any root is appended as it is. -/
theorem replaces_relative (plat : Platform) (p : Path) {q : Path} (hn : q.rootName = [])
    (hd : q.rootDirectory = false) : replaces plat p q = false := by
  cases plat <;> simp [replaces, Path.isAbsolute, hn, hd, hasDrive]

def append (plat : Platform) (p q : Path) : Path :=
  if replaces plat p q then q
  else if q.rootDirectory then { p with rootDirectory := true, names := q.names }
  else
    { p with
      rootDirectory := p.rootDirectory || p.isAbsolute plat
      names := joinNames p.names q.names }

/-! ## Lexically normal paths -/

def normalStep (rooted : Bool) (stack : List Text) (name : Text) : List Text :=
  if name = [] ∨ name = ascii "." then stack
  else if name = ascii ".." then
    match stack.getLast? with
    | none => if rooted then [] else [ascii ".."]
    | some top => if top = ascii ".." then stack ++ [ascii ".."] else stack.dropLast
  else stack ++ [name]

def normalNames (rooted : Bool) (names : List Text) : List Text :=
  names.foldl (normalStep rooted) []

/-- There is nothing above the first name. -/
def Path.rooted (plat : Platform) (p : Path) : Bool := p.rootDirectory || p.isAbsolute plat

def Under (plat : Platform) (root file : Path) : Prop :=
  file.rootName = root.rootName ∧ file.rooted plat = root.rooted plat ∧
    normalNames (root.rooted plat) root.names <+: normalNames (file.rooted plat) file.names

instance (plat : Platform) (root file : Path) : Decidable (Under plat root file) :=
  inferInstanceAs (Decidable (_ ∧ _))

theorem foldl_normalStep (rooted : Bool) {names : List Text} (h : ascii ".." ∉ names)
    (stack : List Text) : stack <+: names.foldl (normalStep rooted) stack := by
  induction names generalizing stack with
  | nil => exact List.prefix_rfl
  | cons name names ih =>
    simp only [List.mem_cons, not_or] at h
    refine List.IsPrefix.trans ?_ (ih h.2 _)
    simp only [normalStep, Ne.symm h.1, if_false]
    split
    · exact List.prefix_rfl
    · exact List.prefix_append stack [name]

/-- An empty name at the end makes no difference. -/
theorem normalNames_base (rooted : Bool) (names : List Text) :
    normalNames rooted (if names.getLast? = some [] then names.dropLast else names) =
      normalNames rooted names := by
  split
  · rename_i h
    obtain ⟨front, rfl⟩ := List.getLast?_eq_some_iff.mp h
    simp [normalNames, normalStep]
  · rfl

theorem normalNames_joinNames (rooted : Bool) {names more : List Text} (h : ascii ".." ∉ more) :
    normalNames rooted names <+: normalNames rooted (joinNames names more) := by
  rw [← normalNames_base, joinNames]
  generalize (if names.getLast? = some [] then names.dropLast else names) = base
  simp only [normalNames]
  split
  · rw [List.foldl_append]
    exact foldl_normalStep rooted (by simp [ascii]) _
  · rw [List.foldl_append]
    exact foldl_normalStep rooted h _

theorem rooted_append (plat : Platform) (p : Path) (names : List Text) :
    Path.rooted plat
      { p with rootDirectory := p.rootDirectory || p.isAbsolute plat, names := names } =
      p.rooted plat := by
  cases plat with
  | posix => simp [Path.rooted, Path.isAbsolute]
  | windows =>
    simp only [Path.rooted, Path.isAbsolute]
    split
    · simp
    · simp

theorem append_under (plat : Platform) {root q : Path} (hr : replaces plat root q = false)
    (hd : q.rootDirectory = false) (hq : ascii ".." ∉ q.names) :
    Under plat root (append plat root q) := by
  have hrooted := rooted_append plat root (joinNames root.names q.names)
  simp only [append, hr, hd, Bool.false_eq_true, if_false]
  refine ⟨rfl, hrooted, ?_⟩
  rw [hrooted]
  exact normalNames_joinNames _ hq

/-! ## Names of a text -/

theorem head_splitOnP (p : UInt8 → Bool) (t : Text) : (t.splitOnP p).headD [] <+: t := by
  induction t with
  | nil => simp
  | cons b t ih =>
    rw [List.splitOnP_cons_eq_if_modifyHead]
    split
    · exact List.nil_prefix
    · cases ht : t.splitOnP p with
      | nil => exact absurd ht (List.splitOnP_ne_nil p t)
      | cons piece pieces =>
        rw [ht] at ih
        simpa using ih

theorem infix_of_mem_splitOnP (p : UInt8 → Bool) {t piece : Text} (h : piece ∈ t.splitOnP p) :
    piece <:+: t := by
  induction t generalizing piece with
  | nil => simp_all
  | cons b t ih =>
    have hhead := head_splitOnP p (b :: t)
    rw [List.splitOnP_cons_eq_if_modifyHead] at h hhead
    split at h
    · rcases List.mem_cons.mp h with rfl | h
      · exact List.nil_infix
      · exact (ih h).trans (List.suffix_cons b t).isInfix
    · rename_i hb
      rw [if_neg hb] at hhead
      cases ht : t.splitOnP p with
      | nil => exact absurd ht (List.splitOnP_ne_nil p t)
      | cons first pieces =>
        rw [ht] at h hhead
        simp only [List.modifyHead_cons, List.mem_cons] at h
        rcases h with rfl | h
        · exact hhead.isInfix
        · exact (ih (by simp [ht, h])).trans (List.suffix_cons b t).isInfix

theorem infix_of_mem_relativeNames {plat : Platform} {t name : Text}
    (h : name ∈ relativeNames plat t) : name <:+: t := by
  unfold relativeNames at h
  simp only at h
  split at h
  · cases h
  · rcases List.mem_append.mp h with h | h
    · exact infix_of_mem_splitOnP _ (List.mem_of_mem_dropLast (List.mem_of_mem_filter h))
    · rw [List.mem_singleton] at h
      rw [h, List.getLastD_eq_getLast?, List.getLast?_eq_some_getLast (List.splitOnP_ne_nil _ t)]
      exact infix_of_mem_splitOnP _ (List.getLast_mem _)

theorem dotdot_not_mem_ofText {plat : Platform} {t : Text} (h : ¬ ascii ".." <:+: t) :
    ascii ".." ∉ (Path.ofText plat t).names := by
  intro hm
  exact h ((infix_of_mem_relativeNames hm).trans (List.drop_suffix _ t).isInfix)

end Fs
end WebServer
