/-
`DaemonHandler`: the requests of the shell extensions as sections over the files table and actions for
the sync loop. A request for a path acts on the row SQLite finds first at the resolved cloud path.
-/
import CloudSync.Db.Queries
import CloudSync.Ipc.PathResolver
import CloudSync.Ipc.Transport

namespace CloudSync

open Ipc (Request Response FileStatus)

/-- The texts of database errors, with those of SQLite as a parameter. -/
def DbError.toString (sqlite : SqliteError → Str) : DbError → Str
  | .notFound message => "Database not found: ".toList ++ message
  | .conflict message => "Conflict: ".toList ++ message
  | .query message => "Query failed: ".toList ++ message
  | .sqlite e => "SQLite error: ".toList ++ sqlite e
  | .migration message => "Migration failed: ".toList ++ message

/-! ## The handler and its world -/

/-- What the handler sends to the sync loop. -/
inductive DaemonAction
  | force (accountId : AccountId) (cloudPath : CloudPath)
  | pause (provider : Option ProviderId)
  | resume (provider : Option ProviderId)
deriving DecidableEq

/-- A handler; `actionTx` says whether it has a channel for its actions. -/
structure DaemonHandler where
  pathResolver : PathResolver
  providerAccounts : List (Str × AccountId)
  actionTx : Bool

/-- What the handler cannot control: the order of the rows, the texts of SQLite, and for every section the
clock and its fault. -/
structure DaemonEnv where
  scan : Scan
  sqliteText : SqliteError → Str
  clock : Nat → DateTime
  dbFault : Nat → Option DbError

/-- The database, how many sections there were, and the actions sent. -/
structure DaemonWorld where
  db : Database
  sections : Nat
  sent : List DaemonAction

/-- `with_conn` -/
def DaemonWorld.withConn {β : Type} (env : DaemonEnv) (f : DbM β) (w : DaemonWorld) : Except Abort β × DaemonWorld :=
  match env.dbFault w.sections with
  | some e => (.error (.err e), { w with sections := w.sections + 1 })
  | none =>
    ((f (env.clock w.sections) w.db).1,
      { w with db := (f (env.clock w.sections) w.db).2, sections := w.sections + 1 })

namespace DaemonHandler

variable (env : DaemonEnv) (h : DaemonHandler)

def lookupAccount (providerSlug : Str) : Option AccountId :=
  (h.providerAccounts.find? fun p => p.1 = providerSlug).map Prod.snd

/-- The account, the cloud path and the provider of a local path, or the error reply. -/
def resolveAndLookup (path : Str) : Except Response (AccountId × CloudPath × Str) :=
  match h.pathResolver.resolveLocal path with
  | none => .error (.error ("path outside sync root: ".toList ++ path))
  | some resolved => match h.lookupAccount resolved.providerSlug with
    | none => .error (.error ("unknown provider: ".toList ++ resolved.providerSlug))
    | some accountId => .ok (accountId, resolved.cloudPath, resolved.providerSlug)

def fileNotFound (path : Str) : Response := .error ("file not found: ".toList ++ path)

def databaseError (e : DbError) : Response := .error ("database error: ".toList ++ e.toString env.sqliteText)

/-- A handler that panics replies nothing. -/
def getStatusForPath (path : Str) (w : DaemonWorld) : Option Response × DaemonWorld :=
  match h.resolveAndLookup path with
  | .error resp => (some resp, w)
  | .ok (accountId, cloudPath, providerSlug) =>
    match w.withConn env (getFileByCloudPath env.scan accountId cloudPath) with
    | (.ok (some file), w) => (some (.status path file.state (some providerSlug) none), w)
    | (.ok none, w) => (some (fileNotFound path), w)
    | (.error (.err e), w) => (some (databaseError env e), w)
    | (.error .panic, w) => (none, w)

/-- The statuses of a batch: every reply that is no status counts as an error of the file. -/
def getStatusBatch : List Str → DaemonWorld → Option (List FileStatus) × DaemonWorld
  | [], w => (some [], w)
  | path :: paths, w =>
    match h.getStatusForPath env path w with
    | (none, w) => (none, w)
    | (some resp, w) =>
      let status : FileStatus := match resp with
        | .status path state provider _ => ⟨path, state, provider⟩
        | _ => ⟨path, .error, none⟩
      match getStatusBatch paths w with
      | (some statuses, w) => (some (status :: statuses), w)
      | (none, w) => (none, w)

def sendAction (action : DaemonAction) (w : DaemonWorld) : DaemonWorld :=
  if h.actionTx then { w with sent := w.sent ++ [action] } else w

/-- The section of `SetPinned`. -/
def setPinnedSection (accountId : AccountId) (cloudPath : CloudPath) (pinned : Bool) : DbM Bool := do
  match ← getFileByCloudPath env.scan accountId cloudPath with
  | none => pure false
  | some file =>
    if pinned then
      -- only a cloud-only file is marked for download
      if file.state = .cloudOnly then
        let _ ← updateFile { file with state := .pending }
        pure true
      else pure true
    else
      let _ ← updateFile { file with state := .cloudOnly }
      pure true

/-- The section of `SetCloudOnly`. -/
def setCloudOnlySection (accountId : AccountId) (cloudPath : CloudPath) : DbM Bool := do
  match ← getFileByCloudPath env.scan accountId cloudPath with
  | none => pure false
  | some file =>
    let _ ← updateFile { file with state := .cloudOnly }
    pure true

/-- The reply to an update: `after` is what a successful one still does. -/
def replyTo (path : Str) (after : DaemonWorld → DaemonWorld) :
    Except Abort Bool × DaemonWorld → Option Response × DaemonWorld
  | (.ok true, w) => (some .ok, after w)
  | (.ok false, w) => (some (fileNotFound path), w)
  | (.error (.err e), w) => (some (databaseError env e), w)
  | (.error .panic, w) => (none, w)

def handle (request : Request) (w : DaemonWorld) : Option Response × DaemonWorld :=
  match request with
  | .getStatus path => h.getStatusForPath env path w
  | .getStatusBatch paths =>
    let (statuses, w) := h.getStatusBatch env paths w
    (statuses.map .statusBatch, w)
  | .setPinned path pinned =>
    match h.resolveAndLookup path with
    | .error resp => (some resp, w)
    | .ok (accountId, cloudPath, _) =>
      replyTo env path (fun w => if pinned then h.sendAction (.force accountId cloudPath) w else w)
        (w.withConn env (setPinnedSection env accountId cloudPath pinned))
  | .setCloudOnly path =>
    match h.resolveAndLookup path with
    | .error resp => (some resp, w)
    | .ok (accountId, cloudPath, _) =>
      replyTo env path id (w.withConn env (setCloudOnlySection env accountId cloudPath))
  | .forceSync path =>
    match h.resolveAndLookup path with
    | .error resp => (some resp, w)
    | .ok (accountId, cloudPath, _) => (some .ok, h.sendAction (.force accountId cloudPath) w)
  | .pauseSync provider => (some .ok, h.sendAction (.pause (provider.bind ProviderId.fromSlug)) w)
  | .resumeSync provider => (some .ok, h.sendAction (.resume (provider.bind ProviderId.fromSlug)) w)

end DaemonHandler

end CloudSync
