/-
`ContentCache`: `ensure_downloaded` as a program over the steps other threads can see (the test that
the path exists, the per-file entry and its lock, the start and the end of the download, the database
sections), and its handler for calls made one after another. A call returns the path at once when
anything is there, and downloads otherwise; what a failed download leaves is there for the next call.
-/
import CloudSync.Lib.Prog
import CloudSync.Lib.UnixPath
import CloudSync.Db.Database
import CloudSync.Providers.GDrive

namespace CloudSync

open Prog (perform exec)

/-! ## The cache -/

inductive DownloadStatus
  | inProgress
  | complete
  | failed (message : Str)
deriving DecidableEq

/-- The error codes of `libc` the cache returns. -/
inductive Errno
  | enotsup
  | eio
deriving DecidableEq

/-- How a call ends without a path. -/
inductive CacheStop
  | errno (e : Errno)
  | panic
deriving DecidableEq

/-- A mutex whose holder panicked. -/
inductive PoisonError
  | poisoned

/-- The steps of the cache: `takeEntry` finds or makes the entry of a file under the map's lock,
`lockStatus` reads the status once the entry's lock is held. -/
inductive CacheOp : Type → Type 1
  | pathExists (path : UnixPath.Text) : CacheOp Bool
  | takeEntry (fileId : FileId) : CacheOp (Except PoisonError Unit)
  | lockStatus (fileId : FileId) : CacheOp (Except PoisonError DownloadStatus)
  | setStatus (fileId : FileId) (status : DownloadStatus) : CacheOp Unit
  | unlockStatus (fileId : FileId) : CacheOp Unit
  | notifyAll (fileId : FileId) : CacheOp Unit
  | startDownload (fileId : FileId) (dest : UnixPath.Text) : CacheOp Unit
  | awaitDownload (fileId : FileId) (dest : UnixPath.Text) : CacheOp (Except CloudError Unit)
  | withConn {β : Type} (f : DbM β) : CacheOp (Except Abort β)

abbrev CacheM (α : Type) := ExceptT CacheStop (Prog CacheOp) α

namespace ContentCache

def act {α : Type} (o : CacheOp α) : CacheM α := ExceptT.lift (perform o)

/-- `.map_err(|_| libc::EIO)?` on a lock. -/
def locked {α : Type} (r : Except PoisonError α) : CacheM α :=
  match r with
  | .ok a => pure a
  | .error _ => throw (.errno .eio)

def cachedPath (cacheRoot : UnixPath.Text) (fileId : FileId) : UnixPath.Text := UnixPath.join cacheRoot fileId.val

/-- Reads the row of a file, and writes it back edited if there is one. -/
def editSection (accountId : AccountId) (fileId : FileId) (edit : DateTime → File → File) : DbM Unit := do
  let file ← getFileByProviderId accountId fileId
  match file with
  | some dbFile =>
    let now ← DbM.now
    let _ ← updateFile (edit now dbFile)
    pure ()
  | none => pure ()

/-- The section of `update_file_state`. -/
def fileStateSection (accountId : AccountId) (fileId : FileId) (state : FileState) : DbM Unit :=
  editSection accountId fileId fun _ dbFile => { dbFile with state := state }

/-- The section of `update_synced_at`. -/
def syncedAtSection (accountId : AccountId) (fileId : FileId) : DbM Unit :=
  editSection accountId fileId fun now dbFile => { dbFile with syncedAt := some now }

/-- A section whose error is only logged. -/
def logged (f : DbM Unit) : CacheM Unit := do
  match ← act (.withConn f) with
  | .error .panic => throw .panic
  | _ => pure ()

def updateFileState (accountId : AccountId) (fileId : FileId) (state : FileState) : CacheM Unit :=
  logged (fileStateSection accountId fileId state)

def updateSyncedAt (accountId : AccountId) (fileId : FileId) : CacheM Unit :=
  logged (syncedAtSection accountId fileId)

/-- After the download: the status under its lock, the waiters, and the row. -/
def finishDownload (accountId : AccountId) (fileId : FileId) (path : UnixPath.Text)
    (result : Except CloudError Unit) : CacheM UnixPath.Text := do
  let _ ← locked (← act (.lockStatus fileId))
  match result with
  | .ok () =>
    act (.setStatus fileId .complete)
    act (.notifyAll fileId)
    updateFileState accountId fileId .synced
    updateSyncedAt accountId fileId
    act (.unlockStatus fileId)
    pure path
  | .error (.cloudNativeFile _) =>
    act (.setStatus fileId (.failed "cloud-native file".toList))
    act (.notifyAll fileId)
    act (.unlockStatus fileId)
    -- the row stays `Syncing` here
    throw (.errno .enotsup)
  | .error e =>
    act (.setStatus fileId (.failed e.toString))
    act (.notifyAll fileId)
    updateFileState accountId fileId .error
    act (.unlockStatus fileId)
    throw (.errno .eio)

/-- The download itself, run without the entry's lock. -/
def performDownload (accountId : AccountId) (fileId : FileId) (path : UnixPath.Text) : CacheM UnixPath.Text := do
  act (.setStatus fileId .inProgress)
  act (.unlockStatus fileId)
  updateFileState accountId fileId .syncing
  act (.startDownload fileId path)
  let result ← act (.awaitDownload fileId path)
  finishDownload accountId fileId path result

def ensureDownloaded (cacheRoot : UnixPath.Text) (accountId : AccountId) (fileId : FileId) :
    CacheM UnixPath.Text := do
  let path := cachedPath cacheRoot fileId
  if ← act (.pathExists path) then pure path
  else
    locked (← act (.takeEntry fileId))
    -- another thread may have finished the download in the meantime
    let status ← locked (← act (.lockStatus fileId))
    if ← act (.pathExists path) then
      act (.unlockStatus fileId)
      pure path
    else match status with
      | .complete =>
        act (.unlockStatus fileId)
        pure path
      -- a failed download is retried
      | .inProgress | .failed _ => performDownload accountId fileId path

end ContentCache

/-! ## Calls one after another -/

/-- What is at a place of the local disk. -/
inductive Node
  | dir
  | file (content : Bytes)
deriving DecidableEq

/-- What the cache cannot control: the working directory, and for every database section the clock
and its fault, and for every download its result and what it leaves where nothing was. -/
structure CacheEnv where
  cwd : List UnixPath.Text
  clock : Nat → DateTime
  dbFault : Nat → Option DbError
  download : Nat → FileId → Except CloudError Unit × Option Bytes

/-- The database, the local disk, the per-file entries, and how many sections and downloads there were. -/
structure CacheWorld where
  db : Database
  files : List UnixPath.Text → Option Node
  locks : FileId → Option DownloadStatus
  sections : Nat
  downloads : Nat

namespace CacheEnv

variable (env : CacheEnv)

def place (path : UnixPath.Text) : List UnixPath.Text := UnixPath.resolve env.cwd path

/-- No other thread runs between the steps, and none has panicked. -/
def handler : Prog.Handler CacheOp CacheWorld
  | _, .pathExists path, w => ((w.files (env.place path)).isSome, w)
  | _, .takeEntry fileId, w =>
    (.ok (), { w with locks := Function.update w.locks fileId (some ((w.locks fileId).getD .inProgress)) })
  | _, .lockStatus fileId, w => (.ok ((w.locks fileId).getD .inProgress), w)
  | _, .setStatus fileId status, w => ((), { w with locks := Function.update w.locks fileId (some status) })
  | _, .unlockStatus _, w => ((), w)
  | _, .notifyAll _, w => ((), w)
  | _, .startDownload _ _, w => ((), w)
  | _, .awaitDownload fileId dest, w =>
    ((env.download w.downloads fileId).1,
      { w with
        files := match (env.download w.downloads fileId).2 with
          | some bytes => Function.update w.files (env.place dest) (some (.file bytes))
          | none => w.files
        downloads := w.downloads + 1 })
  | _, .withConn f, w =>
    match env.dbFault w.sections with
    | some e => (.error (.err e), { w with sections := w.sections + 1 })
    | none =>
      ((f (env.clock w.sections) w.db).1,
        { w with db := (f (env.clock w.sections) w.db).2, sections := w.sections + 1 })

end CacheEnv

end CloudSync
