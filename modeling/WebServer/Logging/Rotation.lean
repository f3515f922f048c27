import WebServer.Lib.Segments
import WebServer.Logging.Lines

/-!
# WebServer.Logging.Rotation

The files of a log: `open_file`, `write_line`, `rotate` and `recent_lines` of `LogManager`.

The file operations succeed, except that a file that does not exist cannot be renamed. Sizes are
natural numbers: `current_bytes + line.size()` does not wrap before a file has 2^64 bytes. The reader
waits in `flush()` until the writer has flushed its streams, so it finds in the files what was written.

* `rotate_eq`: with the removals and the renames every file goes one number up.
* `Represents`: the files are the segments of a log, each line with its line break.
* `writeLine_represents`: `write_line` is a write to the segments.
* `recentLines_represents`: the reader returns the latest lines.
* `rotation_keeps`: what is left in the files after any sequence of lines.
-/

namespace WebServer
namespace Logging

open Http (Text)

/-! ## The options -/

structure LogOptions where
  directory : Text
  maxFileBytes : Nat := 20 * 1024 * 1024
  rotatedFileCount : Nat := 10
  queueCapacity : Nat := 8192

/-- The checks of the constructor. -/
def LogOptions.check (options : LogOptions) : Except String Unit := do
  if options.directory = [] then throw "log directory must not be empty"
  if options.maxFileBytes < 1024 then throw "log max file size must be at least 1024 bytes"
  if options.rotatedFileCount = 0 ∨ 100 < options.rotatedFileCount then
    throw "rotated log file count must be between 1 and 100"
  if options.queueCapacity < 2 ∨ 1000000 < options.queueCapacity then
    throw "log queue capacity must be between 2 and 1000000"

theorem LogOptions.rotated_of_check {options : LogOptions} (h : options.check = .ok ()) :
    0 < options.rotatedFileCount := by
  by_contra hzero
  have hzero : options.rotatedFileCount = 0 := by omega
  simp only [LogOptions.check, hzero, true_or, if_true] at h
  split at h
  · cases h
  · split at h <;> cases h

/-! ## The files -/

/-- The contents of the log itself at `0`, and of the file with `.i` after its name at `i`. -/
abbrev Files : Type := Nat → Option Text

namespace Files

/-- It is no error that the file does not exist. -/
def remove (files : Files) (i : Nat) : Files := Function.update files i none

def rename (files : Files) (source target : Nat) : Except String Files :=
  match files source with
  | some text => .ok (Function.update (Function.update files source none) target (some text))
  | none => .error "cannot rotate log file"

/-- A pass of the loop in `rotate`. -/
def shift (files : Files) (index : Nat) : Except String Files :=
  if (files (index - 1)).isSome then (files.remove index).rename (index - 1) index else .ok files

/-- The loop in `rotate`, from `index` down to `2`. -/
def shifts (files : Files) : Nat → Except String Files
  | 0 => .ok files
  | 1 => .ok files
  | index + 2 => do shifts (← files.shift (index + 2)) (index + 1)

end Files

/-- `RotatingFile` with the files it writes to. -/
structure RotatingFile where
  files : Files
  currentBytes : Nat

def openFile (files : Files) : RotatingFile where
  files := Function.update files 0 (some ((files 0).getD []))
  currentBytes := ((files 0).getD []).length

namespace RotatingFile

def rotate (options : LogOptions) (file : RotatingFile) : Except String RotatingFile := do
  let files ← (file.files.remove options.rotatedFileCount).shifts options.rotatedFileCount
  let files ← (files.remove 1).rename 0 1
  .ok { files := Function.update files 0 (some []), currentBytes := 0 }

/-- `file.stream.write` -/
def append (file : RotatingFile) (line : Text) : RotatingFile where
  files := Function.update file.files 0 (some ((file.files 0).getD [] ++ line))
  currentBytes := file.currentBytes + line.length

@[simp] theorem append_files_zero (file : RotatingFile) (line : Text) :
    (file.append line).files 0 = some ((file.files 0).getD [] ++ line) := by
  simp [append]

@[simp] theorem append_files_succ (file : RotatingFile) (line : Text) (i : Nat) :
    (file.append line).files (i + 1) = file.files (i + 1) := by
  simp [append]

@[simp] theorem append_currentBytes (file : RotatingFile) (line : Text) :
    (file.append line).currentBytes = file.currentBytes + line.length := rfl

def writeLine (options : LogOptions) (file : RotatingFile) (line : Text) :
    Except String RotatingFile := do
  let line := line ++ [10]
  if file.currentBytes ≠ 0 ∧ options.maxFileBytes < file.currentBytes + line.length then
    return (← file.rotate options).append line
  else
    return file.append line

/-- The lines that a loop of `std::getline` reads. What stands after the last line break is a line too
unless it is empty. -/
def getlines (text : Text) : List Text :=
  let pieces := text.splitOn 10
  if pieces.getLast? = some [] then pieces.dropLast else pieces

/-- A pass of the loop in `prepend_file`. -/
def keepLine (remaining : Nat) (fileLines : List Text) (line : Text) : List Text :=
  if 1024 * 1024 < line.length then fileLines else Segments.push remaining fileLines line

/-- A file that does not exist has no lines. -/
def prependFile (maximumLines : Nat) (lines : List Text) (file : Option Text) : List Text :=
  let remaining := maximumLines - lines.length
  if remaining = 0 then lines
  else (getlines (file.getD [])).foldl (keepLine remaining) [] ++ lines

/-- The loop over the rotated files, `count` of them from `index` on. -/
def prependRotated (files : Files) (maximumLines : Nat) (lines : List Text) (index : Nat) :
    Nat → List Text
  | 0 => lines
  | count + 1 =>
    if lines.length < maximumLines then
      prependRotated files maximumLines (prependFile maximumLines lines (files index)) (index + 1) count
    else lines

def recentLines (options : LogOptions) (file : RotatingFile) (maximumLines : Nat) :
    Except String (List Text) :=
  if maximumLines = 0 ∨ 100000 < maximumLines then
    throw "log scan limit must be between 1 and 100000"
  else
    let lines := prependFile maximumLines [] (file.files 0)
    return prependRotated file.files maximumLines lines 1 options.rotatedFileCount

/-- What reading the files gives, the oldest first. -/
def retained (options : LogOptions) (file : RotatingFile) : List Text :=
  (List.range (options.rotatedFileCount + 1)).reverse.flatMap fun i => getlines ((file.files i).getD [])

end RotatingFile

/-! ## Rotation -/

namespace Files

/-- A pass moves the gap one number down, whether there was a file or not. -/
theorem shift_eq {files : Files} {index : Nat} (hgap : files (index + 1) = none) :
    files.shift (index + 1) =
      .ok (Function.update (Function.update files (index + 1) (files index)) index none) := by
  rw [shift, Nat.add_sub_cancel]
  cases hsource : files index with
  | none =>
    rw [if_neg (by simp), ← hgap, Function.update_eq_self, hgap, ← hsource, Function.update_eq_self]
  | some text =>
    rw [if_pos Option.isSome_some, rename, remove, Function.update_of_ne (by omega), hsource]
    simp only
    rw [Function.update_comm (by omega), Function.update_idem, Function.update_comm (by omega)]

/-- The loop moves every file below the gap one number up, except the log itself. -/
theorem shifts_eq {files : Files} {index : Nat} (hgap : files (index + 1) = none) :
    files.shifts (index + 1) = .ok fun i =>
      if i = 1 then none else if 2 ≤ i ∧ i ≤ index + 1 then files (i - 1) else files i := by
  induction index generalizing files with
  | zero =>
    rw [shifts]
    congr 1
    funext i
    by_cases hi : i = 1
    · rw [if_pos hi, hi, hgap]
    · rw [if_neg hi, if_neg (by omega)]
  | succ index ih =>
    rw [shifts, shift_eq hgap]
    refine (ih (Function.update_self ..)).trans ?_
    congr 1
    funext i
    by_cases hone : i = 1
    · rw [if_pos hone, if_pos hone]
    rw [if_neg hone, if_neg hone]
    rcases Nat.lt_trichotomy i (index + 2) with hi | rfl | hi
    · rw [Function.update_of_ne (by omega), Function.update_of_ne (by omega)]
      by_cases hlow : 2 ≤ i
      · rw [if_pos (by omega), if_pos (by omega)]
      · rw [if_neg (by omega), if_neg (by omega), Function.update_of_ne (by omega),
          Function.update_of_ne (by omega)]
    · rw [if_neg (by omega), if_pos (by omega), Function.update_of_ne (by omega), Function.update_self]
      rfl
    · rw [if_neg (by omega), if_neg (by omega), Function.update_of_ne (by omega),
        Function.update_of_ne (by omega)]

end Files

/-- The log becomes the first of the rotated files, every one of them goes one number up, and what
was the last is gone. -/
theorem RotatingFile.rotate_eq {options : LogOptions} {file : RotatingFile} {text : Text}
    (hcount : 0 < options.rotatedFileCount) (hlog : file.files 0 = some text) :
    file.rotate options = .ok {
      files := fun i =>
        if i = 0 then some []
        else if i ≤ options.rotatedFileCount then file.files (i - 1) else file.files i
      currentBytes := 0 } := by
  obtain ⟨count, hcount⟩ := Nat.exists_eq_add_one.mpr hcount
  have hgap : file.files.remove (count + 1) (count + 1) = none := Function.update_self ..
  have hremoved : ∀ i, i ≠ count + 1 → (file.files.remove (count + 1)) i = file.files i := fun i hi =>
    Function.update_of_ne hi _ _
  rw [rotate, hcount, Files.shifts_eq hgap]
  simp only [bind, Except.bind]
  rw [Files.rename, Files.remove, Function.update_of_ne (by omega), if_neg (by omega),
    if_neg (by omega), hremoved 0 (by omega), hlog]
  simp only
  congr 2
  funext i
  by_cases hzero : i = 0
  · rw [hzero, Function.update_self, if_pos rfl]
  rw [Function.update_of_ne hzero, if_neg hzero]
  by_cases hone : i = 1
  · rw [hone, Function.update_self, if_pos (by omega), hlog]
  rw [Function.update_of_ne hone, Function.update_of_ne hzero, Function.update_of_ne hone, if_neg hone]
  by_cases hi : i ≤ count + 1
  · rw [if_pos (by omega), if_pos hi, hremoved _ (by omega)]
  · rw [if_neg (by omega), if_neg hi, hremoved _ (by omega)]

/-! ## The lines -/

/-- A line to be written. -/
structure Line where
  text : Text
  unbroken : 10 ∉ text

/-- The line of an event. -/
def Line.ofEvent {φ : Type} (d : Doubles φ) (timestamp : Int)
    (event : Event AccessLogEntry ErrorLogEntry) : Line where
  text := eventLine d timestamp event
  unbroken := by
    rw [eventLine_eq]
    exact (not_mem_line (fits_eventFields timestamp event)).1

/-- With its line break. -/
def Line.size (line : Line) : Nat := line.text.length + 1

theorem Line.size_pos (line : Line) : 0 < line.size := Nat.succ_pos line.text.length

/-- The text of a file with these lines. -/
def contents (lines : List Line) : Text := lines.flatMap fun line => line.text ++ [10]

theorem contents_append (lines more : List Line) :
    contents (lines ++ more) = contents lines ++ contents more := by
  simp [contents]

theorem length_contents (lines : List Line) :
    (contents lines).length = Segments.total Line.size lines := by
  induction lines with
  | nil => rfl
  | cons line lines ih =>
    rw [← List.singleton_append, contents_append, List.length_append, ih, Segments.total_append]
    simp [contents, Line.size]

theorem contents_eq_intercalate (lines : List Line) :
    contents lines = [10].intercalate (lines.map Line.text ++ [[]]) := by
  induction lines with
  | nil => rfl
  | cons line lines ih =>
    rw [← List.singleton_append, contents_append, ih, List.singleton_append, List.map_cons,
      List.cons_append, Joined.intercalate_cons (by simp)]
    simp [contents]

/-- The lines are read as they were written. -/
theorem getlines_contents (lines : List Line) :
    RotatingFile.getlines (contents lines) = lines.map Line.text := by
  have hsplit : (contents lines).splitOn 10 = lines.map Line.text ++ [[]] := by
    rw [Joined.splitOn_eq_iff]
    refine ⟨by simp, fun piece hpiece => ?_, contents_eq_intercalate lines⟩
    rcases List.mem_append.mp hpiece with hpiece | hpiece
    · obtain ⟨line, _, rfl⟩ := List.mem_map.mp hpiece
      exact line.unbroken
    · rw [List.mem_singleton.mp hpiece]
      simp
  simp [RotatingFile.getlines, hsplit]

/-! ## Files and segments -/

open Segments (write inOrder total)

/-- The files are these segments, the log itself the newest. -/
structure Represents (options : LogOptions) (segments : List (List Line)) (file : RotatingFile) :
    Prop where
  files : ∀ i, file.files i = segments[i]?.map contents
  current : ∀ newest, segments.head? = some newest → file.currentBytes = total Line.size newest
  nonempty : segments ≠ []
  length_le : segments.length ≤ options.rotatedFileCount + 1

/-- `Segments.write` with the bounds of the options. -/
def LogOptions.write (options : LogOptions) (segments : List (List Line)) (line : Line) :
    List (List Line) :=
  Segments.write Line.size options.maxFileBytes options.rotatedFileCount segments line

section

variable {options : LogOptions} {segments : List (List Line)} {file : RotatingFile}

theorem represents_openFile : Represents options [[]] (openFile fun _ => none) where
  files i := by
    cases i <;> simp [openFile, contents]
  current newest h := by
    cases h
    rfl
  nonempty := by simp
  length_le := by simp

theorem Represents.append {newest : List Line} {older : List (List Line)}
    (h : Represents options (newest :: older) file) (line : Line) :
    Represents options ((newest ++ [line]) :: older) (file.append (line.text ++ [10])) where
  files i := by
    cases i with
    | zero =>
      rw [RotatingFile.append_files_zero, h.files]
      simp [contents]
    | succ i =>
      rw [RotatingFile.append_files_succ, h.files, List.getElem?_cons_succ, List.getElem?_cons_succ]
  current := by
    rintro _ ⟨⟩
    rw [RotatingFile.append_currentBytes, h.current newest rfl]
    simp [Line.size]
  nonempty := by simp
  length_le := h.length_le

theorem Represents.rotate {newest : List Line} {older : List (List Line)}
    (h : Represents options (newest :: older) file) (hcount : 0 < options.rotatedFileCount) :
    ∃ file', file.rotate options = .ok file' ∧
      Represents options ([] :: (newest :: older).take options.rotatedFileCount) file' := by
  have hlog : file.files 0 = some (contents newest) := by
    rw [h.files]
    rfl
  refine ⟨_, RotatingFile.rotate_eq hcount hlog, ?_, ?_, by simp, ?_⟩
  · intro i
    cases i with
    | zero => rfl
    | succ i =>
      dsimp only
      rw [if_neg (by omega), List.getElem?_cons_succ, List.getElem?_take]
      by_cases hi : i < options.rotatedFileCount
      · rw [if_pos (by omega), if_pos hi, h.files]
        rfl
      · have := h.length_le
        rw [if_neg (by omega), if_neg hi, h.files, List.getElem?_eq_none (by omega)]
  · rintro _ ⟨⟩
    rfl
  · rw [List.length_cons, List.length_take]
    omega

/-- `write_line` is a write to the segments. -/
theorem writeLine_represents (h : Represents options segments file)
    (hcount : 0 < options.rotatedFileCount) (line : Line) :
    ∃ file', file.writeLine options line.text = .ok file' ∧
      Represents options (options.write segments line) file' := by
  obtain ⟨newest, older, rfl⟩ := List.exists_cons_of_ne_nil h.nonempty
  have hfull : (file.currentBytes ≠ 0 ∧
      options.maxFileBytes < file.currentBytes + (line.text ++ [10]).length) ↔
      Segments.Full Line.size options.maxFileBytes newest line := by
    rw [Segments.Full, h.current newest rfl]
    simp [Line.size]
  rw [LogOptions.write, Segments.write, RotatingFile.writeLine]
  by_cases hrotate : Segments.Full Line.size options.maxFileBytes newest line
  · obtain ⟨file', heq, h'⟩ := h.rotate hcount
    rw [if_pos hrotate, if_pos (hfull.mpr hrotate), heq]
    exact ⟨_, rfl, h'.append line⟩
  · rw [if_neg hrotate, if_neg (hfull.not.mpr hrotate)]
    exact ⟨_, rfl, h.append line⟩

/-! ## The reader -/

theorem flatMap_getlines {files : Files} (hfiles : ∀ i, files i = segments[i]?.map contents)
    {count : Nat} (hlength : segments.length ≤ count) :
    ((List.range count).reverse.flatMap fun i => RotatingFile.getlines ((files i).getD [])) =
      (inOrder segments).map Line.text := by
  induction count generalizing files segments with
  | zero =>
    rw [List.length_eq_zero_iff.mp (Nat.le_zero.mp hlength)]
    rfl
  | succ count ih =>
    rw [List.range_succ_eq_map, List.reverse_cons, List.flatMap_append, ← List.map_reverse,
      List.flatMap_map]
    have htail : ∀ i, files (i + 1) = segments.tail[i]?.map contents := fun i => by
      rw [hfiles, List.getElem?_tail]
    rw [ih htail (by rw [List.length_tail]; omega), List.flatMap_singleton, hfiles]
    cases segments with
    | nil => simp [inOrder, RotatingFile.getlines]
    | cons newest older => simp [getlines_contents]

theorem Represents.retained (h : Represents options segments file) :
    file.retained options = (inOrder segments).map Line.text :=
  flatMap_getlines h.files h.length_le

/-- The lines are short enough for the reader. -/
def Short (lines : List Text) : Prop := ∀ line ∈ lines, line.length ≤ 1024 * 1024

theorem foldl_keepLine {lines : List Text} (h : Short lines) (remaining : Nat) :
    lines.foldl (RotatingFile.keepLine remaining) [] = lines.rtake remaining := by
  have hpush : lines.foldl (RotatingFile.keepLine remaining) [] =
      lines.foldl (Segments.push remaining) [] := by
    apply List.foldl_ext
    intro kept line hline
    rw [RotatingFile.keepLine, if_neg (Nat.not_lt.mpr (h line hline))]
  rw [hpush, ← List.rtake_nil (α := Text) (n := remaining), Segments.foldl_push, List.nil_append]

theorem prependFile_contents {segment : List Line} (h : Short (segment.map Line.text))
    (maximumLines : Nat) (lines : List Text) :
    RotatingFile.prependFile maximumLines lines (some (contents segment)) =
      (segment.map Line.text).rtake (maximumLines - lines.length) ++ lines := by
  rw [RotatingFile.prependFile]
  by_cases hzero : maximumLines - lines.length = 0
  · rw [if_pos hzero, hzero, List.rtake_zero, List.nil_append]
  · rw [if_neg hzero, Option.getD_some, getlines_contents, foldl_keepLine h]

theorem prependFile_none (maximumLines : Nat) (lines : List Text) :
    RotatingFile.prependFile maximumLines lines none = lines := by
  simp [RotatingFile.prependFile, RotatingFile.getlines]

/-- The loop reads the segments one after the other; there is nothing to read after the last one. -/
theorem prependRotated_eq {files : Files} {index count : Nat}
    (hfiles : ∀ i, files (index + i) = segments[i]?.map contents) (hlength : segments.length ≤ count)
    (hshort : ∀ segment ∈ segments, Short (segment.map Line.text)) (maximumLines : Nat)
    (lines : List Text) :
    RotatingFile.prependRotated files maximumLines lines index count =
      Segments.collect maximumLines lines (segments.map (List.map Line.text)) := by
  induction count generalizing segments index lines with
  | zero =>
    rw [List.length_eq_zero_iff.mp (Nat.le_zero.mp hlength)]
    rfl
  | succ count ih =>
    have htail : ∀ i, files (index + 1 + i) = segments.tail[i]?.map contents := fun i => by
      rw [List.getElem?_tail, ← hfiles]
      congr 1
      omega
    have hrest := ih htail (by rw [List.length_tail]; omega)
      fun segment hs => hshort segment (List.mem_of_mem_tail hs)
    rw [RotatingFile.prependRotated, hrest]
    have hhead := hfiles 0
    rw [Nat.add_zero] at hhead
    rw [hhead]
    cases segments with
    | nil =>
      rw [List.getElem?_nil, Option.map_none, prependFile_none]
      exact ite_self _
    | cons segment older =>
      rw [List.getElem?_cons_zero, Option.map_some, prependFile_contents (hshort segment (by simp)),
        List.tail_cons, List.map_cons, Segments.collect]

/-- The reader returns the latest lines, as many as it was asked for if there are so many. -/
theorem recentLines_represents (h : Represents options segments file)
    (hshort : Short ((inOrder segments).map Line.text)) {maximumLines : Nat} (hpos : 0 < maximumLines)
    (hle : maximumLines ≤ 100000) :
    file.recentLines options maximumLines =
      .ok (((inOrder segments).map Line.text).rtake maximumLines) := by
  have hsegment : ∀ segment ∈ segments, Short (segment.map Line.text) := by
    intro segment hs line hline
    obtain ⟨l, hl, rfl⟩ := List.mem_map.mp hline
    exact hshort _ (List.mem_map_of_mem (Segments.mem_inOrder.mpr ⟨segment, hs, hl⟩))
  obtain ⟨newest, older, rfl⟩ := List.exists_cons_of_ne_nil h.nonempty
  have holder : ∀ i, file.files (1 + i) = older[i]?.map contents := fun i => by
    rw [h.files, Nat.add_comm, List.getElem?_cons_succ]
  have hlength : older.length ≤ options.rotatedFileCount := Nat.le_of_succ_le_succ h.length_le
  rw [RotatingFile.recentLines, if_neg (by omega), h.files 0, List.getElem?_cons_zero,
    Option.map_some]
  simp only
  rw [prependFile_contents (hsegment newest (by simp)),
    prependRotated_eq holder hlength fun segment hs => hsegment segment (by simp [hs])]
  rw [List.length_nil, Nat.sub_zero, List.append_nil, Segments.collect_eq]
  simp [inOrder, List.map_flatten]
  rfl

end

/-! ## Every sequence of lines -/

namespace RotatingFile

def writeLines (options : LogOptions) (file : RotatingFile) (lines : List Line) :
    Except String RotatingFile :=
  lines.foldlM (fun file line => file.writeLine options line.text) file

/-- A write adds a line to what is in the files. Lines are lost only if there are as many rotated files
as there may be, and then they are the lines of the last one. -/
def LosesOldest (options : LogOptions) (file : RotatingFile) (line : Line) (file' : RotatingFile) :
    Prop :=
  file'.retained options = file.retained options ++ [line.text] ∨
  ∃ oldest kept, file.files options.rotatedFileCount = some oldest ∧
    (∀ i ≤ options.rotatedFileCount, (file.files i).isSome) ∧
    file.retained options = getlines oldest ++ kept ∧
    file'.retained options = kept ++ [line.text]

/-- What is in the files of a log after `written`, and what the next line and a reader make of it. -/
structure Kept (options : LogOptions) (written : List Line) (file : RotatingFile) : Prop where
  suffix : file.retained options <:+ written.map Line.text
  numbered : ∀ i, options.rotatedFileCount < i → file.files i = none
  bounded : ∀ i text, file.files i = some text →
    text.length ≤ options.maxFileBytes ∨ ∃ line ∈ written, text = line.text ++ [10]
  next : ∀ line : Line, ∃ file', file.writeLine options line.text = .ok file' ∧
    LosesOldest options file line file'
  recent : ∀ maximumLines, 0 < maximumLines → maximumLines ≤ 100000 →
    Short (file.retained options) →
    ∃ lines, file.recentLines options maximumLines = .ok lines ∧
      lines <:+ file.retained options ∧
      lines.length = min maximumLines (file.retained options).length

end RotatingFile

open RotatingFile (writeLines LosesOldest Kept)

section

variable {options : LogOptions} {segments : List (List Line)} {file file' : RotatingFile}

theorem losesOldest_of_represents (h : Represents options segments file) (line : Line)
    (h' : Represents options (options.write segments line) file') :
    LosesOldest options file line file' := by
  obtain ⟨newest, older, rfl⟩ := List.exists_cons_of_ne_nil h.nonempty
  rw [LosesOldest, h.retained, h'.retained]
  rcases Segments.write_cases Line.size options.maxFileBytes line
      (Nat.le_of_succ_le_succ h.length_le) with heq | ⟨oldest, hlast, _, kept, hkept, heq⟩
  · left
    rw [LogOptions.write, heq, List.map_append]
    rfl
  · right
    refine ⟨contents oldest, kept.map Line.text, ?_, fun i hi => ?_, ?_, ?_⟩
    · rw [h.files, hlast, Option.map_some]
    · have hlength := (List.getElem?_eq_some_iff.mp hlast).1
      rw [h.files, Option.isSome_map, List.getElem?_eq_getElem (by omega), Option.isSome_some]
    · rw [hkept, getlines_contents, List.map_append]
    · rw [LogOptions.write, heq, List.map_append]
      rfl

/-- The segments hold the end of what was written. -/
theorem suffix_write {written : List Line} (hsuffix : inOrder segments <:+ written)
    (h : Represents options segments file) (line : Line) :
    inOrder (options.write segments line) <:+ written ++ [line] := by
  obtain ⟨newest, older, rfl⟩ := List.exists_cons_of_ne_nil h.nonempty
  obtain ⟨lost, rfl⟩ := hsuffix
  rcases Segments.write_cases Line.size options.maxFileBytes line
      (Nat.le_of_succ_le_succ h.length_le) with heq | ⟨oldest, _, _, kept, hkept, heq⟩
  · exact ⟨lost, by rw [LogOptions.write, heq, List.append_assoc]⟩
  · exact ⟨lost ++ oldest, by rw [LogOptions.write, heq, hkept]; simp⟩

/-- The invariant of a log: the files are segments that keep to the bounds and hold the end of what
was written. -/
structure Logged (options : LogOptions) (written : List Line) (segments : List (List Line))
    (file : RotatingFile) : Prop where
  represents : Represents options segments file
  suffix : inOrder segments <:+ written
  filled : ∀ segment ∈ segments, Segments.Filled Line.size options.maxFileBytes segment

theorem logged_openFile : Logged options [] [[]] (openFile fun _ => none) where
  represents := represents_openFile
  suffix := List.suffix_rfl
  filled := by simp [Segments.Filled]

theorem Logged.writeLine {written : List Line} (h : Logged options written segments file)
    (hcount : 0 < options.rotatedFileCount) (line : Line) :
    ∃ file', file.writeLine options line.text = .ok file' ∧
      Logged options (written ++ [line]) (options.write segments line) file' := by
  obtain ⟨file', heq, h'⟩ := writeLine_represents h.represents hcount line
  exact ⟨file', heq, h', suffix_write h.suffix h.represents line,
    Segments.filled_write Line.size_pos h.filled line⟩

theorem Logged.writeLines {written : List Line} (h : Logged options written segments file)
    (hcount : 0 < options.rotatedFileCount) (lines : List Line) :
    ∃ file' segments', file.writeLines options lines = .ok file' ∧
      Logged options (written ++ lines) segments' file' := by
  induction lines generalizing written segments file with
  | nil => exact ⟨file, segments, rfl, by rwa [List.append_nil]⟩
  | cons line lines ih =>
    obtain ⟨file₁, heq, h₁⟩ := h.writeLine hcount line
    obtain ⟨file', segments', heq', h'⟩ := ih h₁
    refine ⟨file', segments', ?_, by simpa using h'⟩
    rw [RotatingFile.writeLines, List.foldlM_cons, heq]
    exact heq'

theorem Logged.kept {written : List Line} (h : Logged options written segments file)
    (hcount : 0 < options.rotatedFileCount) : Kept options written file where
  suffix := by
    rw [h.represents.retained]
    exact h.suffix.map Line.text
  numbered i hi := by
    have := h.represents.length_le
    rw [h.represents.files, List.getElem?_eq_none (by omega), Option.map_none]
  bounded i text htext := by
    rw [h.represents.files, Option.map_eq_some_iff] at htext
    obtain ⟨segment, hget, rfl⟩ := htext
    have hmem := List.mem_of_getElem? hget
    rcases h.filled segment hmem with hle | ⟨line, rfl⟩
    · exact .inl ((length_contents segment).trans_le hle)
    · refine .inr ⟨line, h.suffix.subset (Segments.mem_inOrder.mpr ⟨_, hmem, by simp⟩), ?_⟩
      simp [contents]
  next line := by
    obtain ⟨file', heq, h'⟩ := writeLine_represents h.represents hcount line
    exact ⟨file', heq, losesOldest_of_represents h.represents line h'⟩
  recent maximumLines hpos hle hshort := by
    rw [h.represents.retained] at hshort ⊢
    exact ⟨_, recentLines_represents h.represents hshort hpos hle, List.drop_suffix _ _,
      Segments.length_rtake _ _⟩

/-- **Rotation keeps the newest lines.** Whatever is written from no files on, the files hold the end
of it, each file keeps to the bound or has one line, lines are lost only with the last of the rotated
files, and the reader returns the latest lines in their order. -/
theorem rotation_keeps (h : options.check = .ok ()) (written : List Line) :
    ∃ file, (openFile fun _ => none).writeLines options written = .ok file ∧
      Kept options written file := by
  have hcount := LogOptions.rotated_of_check h
  obtain ⟨file, segments, heq, hlogged⟩ := logged_openFile.writeLines hcount written
  exact ⟨file, heq, Logged.kept (by simpa using hlogged) hcount⟩

end

namespace Rotated

/-- One rotated file, and three lines of which two do not fit into a file. -/
def options : LogOptions := { directory := [46], maxFileBytes := 1024, rotatedFileCount := 1 }

def line (b : UInt8) (h : b ≠ 10) : Line where
  text := List.replicate 600 b
  unbroken := fun hmem => h (List.eq_of_mem_replicate hmem).symm

def written : List Line := [line 97 (by decide), line 98 (by decide), line 99 (by decide)]

theorem rotation_keeps_three :
    options.check = .ok () ∧
    ∃ file, (openFile fun _ => none).writeLines options written = .ok file ∧
      Kept options written file :=
  ⟨rfl, rotation_keeps rfl written⟩

end Rotated

end Logging
end WebServer
