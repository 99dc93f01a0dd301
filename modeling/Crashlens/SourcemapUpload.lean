import Crashlens.Library.Program
import Crashlens.Sourcemaps

/-!
# The upload and the removal of source maps

The endpoints as programs over the requests they make of the file system, of the body of the upload
and of the database. Paths are strings, joined as `os.path.join` does it. An upload is the filename
the client sends and what the successive reads of it give; a request to read goes on with the next
chunk or raises. The listing of a release in the response opens no file and is left out.
-/

namespace Crashlens

open Transactional

/-- `os.path.join` of two paths. -/
def osPathJoin (a b : PyStr) : PyStr :=
  if b.head? = some slash then b
  else if a = [] ∨ a.getLast? = some slash then a ++ b
  else a ++ slash :: b

def projectMapsDir (sourcemapsDir : PyStr) (orgId projectId : ℕ) : PyStr :=
  osPathJoin (osPathJoin sourcemapsDir (uuidStr orgId)) (uuidStr projectId)

def releaseMapsPath (sourcemapsDir : PyStr) (orgId projectId : ℕ) (release : PyStr) :
    Except PyError PyStr := do
  return osPathJoin (projectMapsDir sourcemapsDir orgId projectId) (← releaseDirname release)

def maxFiles : ℕ := 20

def maxFileBytes : ℕ := 20 * 1024 * 1024

def chunkBytes : ℕ := 1024 * 1024

/-- The reads give nothing only at the end. -/
structure Upload where
  filename : Option PyStr
  reads : List (List UInt8)
  nonempty : ∀ chunk ∈ reads, chunk ≠ []
  bounded : ∀ chunk ∈ reads, chunk.length ≤ chunkBytes

def Upload.content (upload : Upload) : List UInt8 := upload.reads.flatten

/-- `interrupted` is what a read raises when the client has gone. -/
inductive UploadError where
  | http (status : ℕ) (detail : PyStr)
  | encoding (e : PyError)
  | fileNotFound
  | os
  | interrupted
  deriving DecidableEq

inductive FileRequest where
  | verifyProject
  | isdir (path : PyStr)
  | rmtree (path : PyStr)
  | makedirs (path : PyStr)
  | openWrite (path : PyStr)
  | read
  | write (handle : ℕ) (chunk : List UInt8)
  | close (handle : ℕ)
  | replace (source dest : PyStr)
  | pathExists (path : PyStr)
  | remove (path : PyStr)

namespace FileRequest

def Resp : FileRequest → Type
  | .verifyProject | .isdir _ | .pathExists _ => Bool
  | .openWrite _ => Except UploadError ℕ
  | _ => Except UploadError Unit

/-- The paths a request names. -/
def paths : FileRequest → List PyStr
  | .isdir path | .rmtree path | .makedirs path | .openWrite path | .pathExists path
  | .remove path => [path]
  | .replace source dest => [source, dest]
  | .verifyProject | .read | .write _ _ | .close _ => []

end FileRequest

abbrev Endpoint (α : Type) : Type := Program FileRequest FileRequest.Resp UploadError α

def orRaise {α : Type} : Except UploadError α → Endpoint α
  | .ok a => .pure a
  | .error e => .raise e

def verifyProject : Endpoint Bool := Program.call .verifyProject .pure

def isdir (path : PyStr) : Endpoint Bool := Program.call (.isdir path) .pure

def pathExists (path : PyStr) : Endpoint Bool := Program.call (.pathExists path) .pure

def makedirs (path : PyStr) : Endpoint Unit := .call (.makedirs path) orRaise

def rmtree (path : PyStr) : Endpoint Unit := .call (.rmtree path) orRaise

def remove (path : PyStr) : Endpoint Unit := .call (.remove path) orRaise

def projectNotFound : UploadError := .http 404 (py "Project not found.")

def fileTooLarge : UploadError :=
  .http 413 (py "A source map file exceeds the maximum allowed size of 20 MB.")

/-! ## Streaming one file -/

/-- The `except BaseException` block. -/
def leaveNothing {α : Type} (tmpPath : PyStr) (e : UploadError) : Endpoint α :=
  (pathExists tmpPath).bind fun found =>
    if found then (remove tmpPath).bind fun _ => .raise e
    else .raise e

/-- An exception that leaves the `with` block closes the file first. -/
def closeAndLeave {α : Type} (handle : ℕ) (tmpPath : PyStr) (e : UploadError) : Endpoint α :=
  .call (.close handle) fun (closed : Except UploadError Unit) =>
    match closed with
    | .ok () => leaveNothing tmpPath e
    | .error e' => leaveNothing tmpPath e'

def finish (tmpPath destPath : PyStr) (handle total : ℕ) : Endpoint ℕ :=
  .call (.close handle) fun (closed : Except UploadError Unit) =>
    match closed with
    | .error e => leaveNothing tmpPath e
    | .ok () => .call (.replace tmpPath destPath) fun (replaced : Except UploadError Unit) =>
        match replaced with
        | .error e => leaveNothing tmpPath e
        | .ok () => .pure total

/-- The loop, before each read. -/
def streamLoop (tmpPath destPath : PyStr) (handle : ℕ) : List (List UInt8) → ℕ → Endpoint ℕ
  | [], total => .call .read fun (read : Except UploadError Unit) =>
      match read with
      | .error e => closeAndLeave handle tmpPath e
      | .ok () => finish tmpPath destPath handle total
  | chunk :: rest, total => .call .read fun (read : Except UploadError Unit) =>
      match read with
      | .error e => closeAndLeave handle tmpPath e
      | .ok () =>
        if maxFileBytes < total + chunk.length then closeAndLeave handle tmpPath fileTooLarge
        else .call (.write handle chunk) fun (written : Except UploadError Unit) =>
          match written with
          | .error e => closeAndLeave handle tmpPath e
          | .ok () => streamLoop tmpPath destPath handle rest (total + chunk.length)

def tmpSuffix : PyStr := py ".tmp"

def streamToDisk (upload : Upload) (destPath : PyStr) : Endpoint ℕ :=
  let tmpPath := destPath ++ tmpSuffix
  .call (.openWrite tmpPath) fun (opened : Except UploadError ℕ) =>
    match opened with
    | .error e => leaveNothing tmpPath e
    | .ok handle => streamLoop tmpPath destPath handle upload.reads 0

/-! ## The endpoints -/

def mapSuffix : PyStr := py ".map"

def planUpload (upload : Upload) : Except UploadError (Upload × PyStr) :=
  match safeBasename (upload.filename.getD []) with
  | none => .error (.http 400 (py "A file has an unsafe or empty name."))
  | some basename =>
    if mapSuffix.isSuffixOf basename then .ok (upload, basename)
    else .error (.http 400 (py "Only .map files are accepted; '" ++ basename ++
      py "' is not a .map file."))

/-- Returns the bytes written of each file. -/
def storePlanned (releaseDir : PyStr) : List (Upload × PyStr) → Endpoint (List ℕ)
  | [] => .pure []
  | (upload, basename) :: rest =>
      (streamToDisk upload (osPathJoin releaseDir basename)).bind fun size =>
        (storePlanned releaseDir rest).bind fun sizes => .pure (size :: sizes)

def releaseDirectory (sourcemapsDir : PyStr) (orgId projectId : ℕ) (release : PyStr) :
    Endpoint PyStr :=
  orRaise ((releaseMapsPath sourcemapsDir orgId projectId release).mapError .encoding)

def uploadSourcemaps (rt : Runtime) (sourcemapsDir : PyStr) (orgId projectId : ℕ) (release : PyStr)
    (files : List Upload) : Endpoint (List ℕ) := do
  let release := strip rt.isSpace release
  if release = [] then .raise (.http 400 (py "A release is required."))
  else if files = [] then .raise (.http 400 (py "At least one source map file is required."))
  else if maxFiles < files.length then
    .raise (.http 400 (py "At most 20 files may be uploaded per request."))
  else if !(← verifyProject) then .raise projectNotFound
  else
    let releaseDir ← releaseDirectory sourcemapsDir orgId projectId release
    let planned ← orRaise (files.mapM planUpload)
    makedirs releaseDir
    storePlanned releaseDir planned

/-- Whether there was anything to remove. -/
def deleteReleaseMaps (sourcemapsDir : PyStr) (orgId projectId : ℕ) (release : PyStr) :
    Endpoint Bool := do
  let releasePath ← releaseDirectory sourcemapsDir orgId projectId release
  if !(← isdir releasePath) then return false
  else
    rmtree releasePath
    return true

def deleteSourcemaps (sourcemapsDir : PyStr) (orgId projectId : ℕ) (release : PyStr) :
    Endpoint Unit := do
  if !(← verifyProject) then .raise projectNotFound
  else
    let removed ← deleteReleaseMaps sourcemapsDir orgId projectId release
    if !removed then .raise (.http 404 (py "No source maps found for that release."))

end Crashlens
