import WebServer.Lib.Path

/-!
# WebServer.Admin.StaticFiles

The files of the admin interface: `AdminSession::on_read` passes what is not for the API to
`static_response`, which looks the path of the request up below a root directory.

The path is checked before it is appended to the root: it begins with a separator and has no `..`, no
backslash and no percent sign. What is appended is the rest after that first separator, and nothing
keeps that from having a root of its own.

* `opened_staticResponse_iff`: which file is opened, if any.
* `opensUnder_iff`: it is below the root exactly when the rest has no root of its own, or spells out a
  path below the root anyway.
-/

namespace WebServer
namespace Admin

open Http (Text ascii)
open Fs

inductive Verb where
  | get
  | head
  | other
  deriving DecidableEq

structure Request where
  method : Verb
  target : Text
  keepAlive : Bool

structure Response where
  status : Nat
  fields : List (Text × Text)
  keepAlive : Bool
  body : Text
  contentLength : Nat
  deriving DecidableEq

structure FileSystem where
  exist : Path → Bool
  isRegularFile : Path → Bool
  /-- `none` when the file cannot be opened for reading. -/
  content : Path → Option Text

/-- A response, and the file that was opened for it. -/
structure Reply where
  response : Response
  opened : Option Path
  deriving DecidableEq

/-! ## Static responses -/

def contentTypes : List (String × String) :=
  [(".html", "text/html; charset=utf-8"), (".js", "text/javascript; charset=utf-8"),
    (".css", "text/css; charset=utf-8"), (".json", "application/json; charset=utf-8"),
    (".svg", "image/svg+xml"), (".png", "image/png"), (".ico", "image/x-icon"),
    (".woff2", "font/woff2")]

def contentType (plat : Platform) (path : Path) : Text :=
  match contentTypes.find? fun entry => ascii entry.1 = extension plat path with
  | some entry => ascii entry.2
  | none => ascii "application/octet-stream"

def browserSecurityHeaders : List (Text × Text) :=
  [(ascii "Content-Security-Policy", ascii ("default-src 'self'; img-src 'self' data:; " ++
      "style-src 'self'; script-src 'self'; " ++
      "base-uri 'none'; frame-ancestors 'none'; form-action 'self'")),
    (ascii "X-Content-Type-Options", ascii "nosniff"),
    (ascii "X-Frame-Options", ascii "DENY"),
    (ascii "Referrer-Policy", ascii "no-referrer"),
    (ascii "Cache-Control", ascii "no-store")]

def textResponse (request : Request) (status : Nat) (body : String) : Response where
  status := status
  fields := (ascii "Content-Type", ascii "text/plain; charset=utf-8") :: browserSecurityHeaders
  keepAlive := request.keepAlive
  body := ascii body
  contentLength := (ascii body).length

def fileResponse (plat : Platform) (request : Request) (file : Path) (body : Text) :
    Response where
  status := 200
  fields := (ascii "Content-Type", contentType plat file) :: browserSecurityHeaders
  keepAlive := request.keepAlive
  body := if request.method = .head then [] else body
  contentLength := body.length

/-- The target up to the query. -/
def requestPath (request : Request) : Text := request.target.takeWhile fun b => b ≠ 63

def InvalidPath (path : Text) : Prop :=
  path = [] ∨ path.head? ≠ some 47 ∨ ascii ".." <:+: path ∨ 92 ∈ path ∨ 37 ∈ path

instance (path : Text) : Decidable (InvalidPath path) := inferInstanceAs (Decidable (_ ∨ _))

/-- What is appended to the root. -/
def relativePart (path : Text) : Text := if path = [47] then ascii "index.html" else path.drop 1

section Static

variable (plat : Platform) (fs : FileSystem) (root : Path)

def indexHtml : Path := append plat root (.ofText plat (ascii "index.html"))

def isFile (file : Path) : Bool := fs.exist file && fs.isRegularFile file

/-- The file of the path, or the index for a path without an extension that names no file. -/
def filePath (path : Text) : Path :=
  let file := append plat root (.ofText plat (relativePart path))
  let spelled := if path = [47] then ascii "/index.html" else path
  if isFile fs file = false ∧ extension plat (.ofText plat spelled) = [] then indexHtml plat root
  else file

def staticResponse (request : Request) : Reply :=
  if request.method ≠ .get ∧ request.method ≠ .head then
    ⟨textResponse request 405 "Method Not Allowed", none⟩
  else
    let path := requestPath request
    if InvalidPath path then ⟨textResponse request 400 "Invalid path", none⟩
    else
      let file := filePath plat fs root path
      if isFile fs file = false then ⟨textResponse request 404 "Not Found", none⟩
      else
        match fs.content file with
        | none => ⟨textResponse request 500 "Cannot read admin asset", some file⟩
        | some body => ⟨fileResponse plat request file body, some file⟩

/-- `api` is the answer of the API, which opens no static file. -/
def onRead (api : Request → Response) (loopback stopping : Bool) (request : Request) : Reply :=
  if ascii "/api/" <+: request.target then
    if loopback then ⟨api request, none⟩ else ⟨textResponse request 403 "Loopback access only", none⟩
  else
    let reply := staticResponse plat fs root request
    if stopping then { reply with response.keepAlive := false } else reply

end Static

/-! ## The files that are opened -/

section Opened

variable {plat : Platform} {fs : FileSystem} {root : Path} {request : Request}

/-- The request reaches the files. -/
def Accepted (request : Request) : Prop :=
  (request.method = .get ∨ request.method = .head) ∧ ¬ InvalidPath (requestPath request)

instance (request : Request) : Decidable (Accepted request) := inferInstanceAs (Decidable (_ ∧ _))

theorem opened_staticResponse_iff {file : Path} :
    (staticResponse plat fs root request).opened = some file ↔
      Accepted request ∧ file = filePath plat fs root (requestPath request) ∧
        isFile fs file = true := by
  simp only [staticResponse, Accepted]
  by_cases hm : request.method = .get ∨ request.method = .head
  · have hm' : ¬ (request.method ≠ .get ∧ request.method ≠ .head) := by tauto
    rw [if_neg hm']
    by_cases hp : InvalidPath (requestPath request)
    · simp [hp]
    · rw [if_neg hp]
      simp only [hm, hp, not_false_eq_true, and_self, true_and]
      cases hf : isFile fs (filePath plat fs root (requestPath request)) with
      | false =>
        simp only [if_true, reduceCtorEq, false_iff, not_and]
        rintro rfl
        simp [hf]
      | true =>
        simp only [Bool.true_eq_false, if_false]
        split
        · simp only [Option.some.injEq]
          exact ⟨fun h => ⟨h.symm, h ▸ hf⟩, fun h => h.1.symm⟩
        · simp only [Option.some.injEq]
          exact ⟨fun h => ⟨h.symm, h ▸ hf⟩, fun h => h.1.symm⟩
  · rw [if_pos (by tauto)]
    simp [hm]

theorem opened_onRead {api : Request → Response} {loopback stopping : Bool} {file : Path} :
    (onRead plat fs root api loopback stopping request).opened = some file ↔
      ¬ ascii "/api/" <+: request.target ∧
        (staticResponse plat fs root request).opened = some file := by
  unfold onRead
  split
  · split <;> simp_all
  · split <;> simp_all

theorem indexHtml_under (plat : Platform) (root : Path) : Under plat root (indexHtml plat root) := by
  have hn : (Path.ofText plat (ascii "index.html")).rootName = [] := by cases plat <;> decide
  have hd : (Path.ofText plat (ascii "index.html")).rootDirectory = false := by cases plat <;> decide
  exact append_under plat (replaces_relative plat root hn hd) hd (by cases plat <;> decide)

/-- The path has no root of its own, other than the name of the root it is appended to. -/
def Confined (plat : Platform) (root q : Path) : Prop :=
  replaces plat root q = false ∧ q.rootDirectory = false

instance (plat : Platform) (root q : Path) : Decidable (Confined plat root q) :=
  inferInstanceAs (Decidable (_ ∧ _))

/-- The path that a text with a root of its own spells out; a missing root name is that of the
root. -/
def spelled (plat : Platform) (root q : Path) : Path :=
  if replaces plat root q then q else { root with rootDirectory := true, names := q.names }

theorem append_of_not_confined {q : Path} (h : ¬ Confined plat root q) :
    append plat root q = spelled plat root q := by
  unfold append spelled
  split
  · rfl
  · rename_i hr
    have hd : q.rootDirectory = true := by
      by_contra hd
      exact h ⟨by simpa using hr, by simpa using hd⟩
    rw [if_pos hd]

/-- The part of the target that is appended to the root. -/
def requested (plat : Platform) (request : Request) : Path :=
  .ofText plat (relativePart (requestPath request))

theorem dotdot_not_mem_requested (h : Accepted request) :
    ascii ".." ∉ (requested plat request).names := by
  refine dotdot_not_mem_ofText ?_
  obtain ⟨-, hp⟩ := h
  simp only [InvalidPath, not_or] at hp
  unfold relativePart
  split
  · decide
  · exact fun hin => hp.2.2.1 (hin.trans (List.drop_suffix _ _).isInfix)

/-- What the API gets would have stayed below the root. -/
theorem confined_api (h : ascii "/api/" <+: request.target) :
    Confined plat root (requested plat request) := by
  obtain ⟨rest, hrest⟩ := h
  have hpath : requestPath request = ascii "/api/" ++ rest.takeWhile fun b => b ≠ 63 := by
    rw [requestPath, ← hrest]
    rfl
  have hpart : relativePart (requestPath request) =
      ascii "api/" ++ rest.takeWhile fun b => b ≠ 63 := by
    rw [hpath]
    rfl
  have hlen : ∀ t, rootNameLength plat (ascii "api/" ++ t) = 0 := by
    intro t
    cases plat <;> rfl
  have hd : (requested plat request).rootDirectory = false := by
    rw [requested, hpart, Path.ofText, hlen]
    cases plat <;> rfl
  have hn : (requested plat request).rootName = [] := by
    rw [requested, hpart, Path.ofText, hlen]
    rfl
  exact ⟨replaces_relative plat root hn hd, hd⟩

/-- No file but those below the root, in any file system. -/
def OpensUnder (plat : Platform) (root : Path) (request : Request) : Prop :=
  ∀ fs api loopback stopping file,
    (onRead plat fs root api loopback stopping request).opened = some file → Under plat root file

theorem under_append (h : Accepted request)
    (hq : Confined plat root (requested plat request) ∨
      Under plat root (spelled plat root (requested plat request))) :
    Under plat root (append plat root (requested plat request)) := by
  by_cases hc : Confined plat root (requested plat request)
  · exact append_under plat hc.1 hc.2 (dotdot_not_mem_requested h)
  · rw [append_of_not_confined hc]
    exact hq.resolve_left hc

theorem filePath_cases (plat : Platform) (fs : FileSystem) (root : Path) (request : Request) :
    filePath plat fs root (requestPath request) = indexHtml plat root ∨
      filePath plat fs root (requestPath request) = append plat root (requested plat request) := by
  unfold filePath requested
  generalize (if requestPath request = [47] then ascii "/index.html" else requestPath request) =
    name
  simp only
  split
  · exact .inl rfl
  · exact .inr rfl

theorem opensUnder_of (h : Accepted request →
    Confined plat root (requested plat request) ∨
      Under plat root (spelled plat root (requested plat request))) :
    OpensUnder plat root request := by
  intro fs api loopback stopping file hopened
  obtain ⟨-, hstatic⟩ := opened_onRead.mp hopened
  obtain ⟨haccepted, rfl, -⟩ := opened_staticResponse_iff.mp hstatic
  rcases filePath_cases plat fs root request with hfile | hfile
  · rw [hfile]
    exact indexHtml_under plat root
  · rw [hfile]
    exact under_append haccepted (h haccepted)

theorem spelled_under (h : OpensUnder plat root request) (haccepted : Accepted request)
    (hc : ¬ Confined plat root (requested plat request)) :
    Under plat root (spelled plat root (requested plat request)) := by
  -- in this file system everything is a file
  let fs : FileSystem := ⟨fun _ => true, fun _ => true, fun _ => some []⟩
  have hfile : filePath plat fs root (requestPath request) =
      append plat root (requested plat request) := by
    simp [filePath, isFile, fs, requested]
  have hopened : (onRead plat fs root (fun r => textResponse r 401 "Unauthorized") true false
      request).opened = some (append plat root (requested plat request)) :=
    opened_onRead.mpr ⟨fun hapi => hc (confined_api hapi),
      opened_staticResponse_iff.mpr ⟨haccepted, hfile.symm, rfl⟩⟩
  rw [← append_of_not_confined hc]
  exact h _ _ _ _ _ hopened

/-- Only files below the root are opened exactly when the request is refused, or what it appends has
no root of its own, or spells out a path that is below the root already. -/
theorem opensUnder_iff (plat : Platform) (root : Path) (request : Request) :
    OpensUnder plat root request ↔
      (Accepted request →
        Confined plat root (requested plat request) ∨
          Under plat root (spelled plat root (requested plat request))) :=
  ⟨fun h haccepted => Decidable.or_iff_not_imp_left.mpr (spelled_under h haccepted), opensUnder_of⟩

end Opened

def getOf (target : String) : Request := ⟨.get, ascii target, true⟩

example : Accepted (getOf "/assets/app.js?v=1") ∧
    Confined .posix (.ofText .posix (ascii "/opt/webserver/admin"))
      (requested .posix (getOf "/assets/app.js?v=1")) := by decide

/-- The second separator makes the rest an absolute path, and so does a drive letter. -/
theorem passwd_opened :
    Accepted (getOf "//etc/passwd") ∧
    (∀ fs : FileSystem, isFile fs ⟨[], true, [ascii "etc", ascii "passwd"]⟩ = true →
      ∀ api loopback, (onRead .posix fs (.ofText .posix (ascii "/opt/webserver/admin")) api loopback
        false (getOf "//etc/passwd")).opened =
          some ⟨[], true, [ascii "etc", ascii "passwd"]⟩) ∧
    ¬ Under .posix (.ofText .posix (ascii "/opt/webserver/admin"))
      ⟨[], true, [ascii "etc", ascii "passwd"]⟩ ∧
    ¬ OpensUnder .posix (.ofText .posix (ascii "/opt/webserver/admin")) (getOf "//etc/passwd") ∧
    ¬ OpensUnder .windows (.ofText .windows (ascii "C:/WebServer/admin"))
      (getOf "/C:/Windows/win.ini") := by
  have hapi : ¬ ascii "/api/" <+: (getOf "//etc/passwd").target := by decide
  have haccepted : Accepted (getOf "//etc/passwd") := by decide
  refine ⟨haccepted, ?_, by decide, ?_, ?_⟩
  · intro fs hfile api loopback
    refine opened_onRead.mpr ⟨hapi, opened_staticResponse_iff.mpr ⟨haccepted, ?_, hfile⟩⟩
    have happend : append .posix (.ofText .posix (ascii "/opt/webserver/admin"))
        (.ofText .posix (relativePart (requestPath (getOf "//etc/passwd")))) =
        ⟨[], true, [ascii "etc", ascii "passwd"]⟩ := by decide
    simp [filePath, happend, hfile]
  · intro h
    exact absurd (spelled_under h haccepted (by decide)) (by decide)
  · intro h
    exact absurd (spelled_under h (by decide) (by decide)) (by decide)

end Admin
end WebServer
