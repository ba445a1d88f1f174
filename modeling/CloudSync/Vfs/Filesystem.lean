/-
`CloudSyncFS`: the handlers `lookup` and `readdir` over the files table and the inode map. Both search
the children of a directory by path; `readdir` lists them all, `lookup` answers with the first of a name.
-/
import CloudSync.Db.Queries
import CloudSync.Vfs.Inodes
import Mathlib.Data.List.DropRight

namespace CloudSync

/-! ## The metadata cache -/

inductive CacheState
  | cloudOnly
  | downloading
  | cached
  | modified
deriving DecidableEq

/-- A file as the file system sees it. -/
structure CachedFile where
  fileId : FileId
  name : Str
  path : Str
  size : UInt64
  isDirectory : Bool
  modifiedTime : DateTime
  state : CacheState
deriving DecidableEq

def fileStateToCacheState : FileState → CacheState
  | .synced => .cached
  | .syncing => .downloading
  | .offlineModified => .modified
  | _ => .cloudOnly

def dbFileToCachedFile (file : File) : CachedFile where
  fileId := file.providerFileId
  name := file.name
  path := file.path.asStr
  size := file.size.getD 0
  isDirectory := file.isFolder
  modifiedTime := file.modifiedAt
  state := fileStateToCacheState file.state

structure MetadataCache where
  db : Database
  accountId : AccountId

namespace MetadataCache

/-- `with_conn` for a section that only reads. -/
def read {β : Type} (fault : Option DbError) (now : DateTime) (f : DbM β) (c : MetadataCache) : Except Abort β :=
  match fault with
  | some e => .error (.err e)
  | none => (f now c.db).1

def get (fault : Option DbError) (now : DateTime) (fileId : FileId) (c : MetadataCache) :
    Except Abort (Option CachedFile) :=
  (c.read fault now (getFileByProviderId c.accountId fileId)).map (Option.map dbFileToCachedFile)

/-- `trim_end_matches('/')` -/
def trimEndSlashes (path : Str) : Str := path.rdropWhile (· = '/')

def childPrefix (parent : Str) : Str := if parent = ['/'] then ['/'] else trimEndSlashes parent ++ ['/']

/-- The path starts with the prefix and has no slash after it. -/
def isChild (pre path : Str) : Bool := pre.isPrefixOf path && !(path.drop pre.length).contains '/'

def getChildren (scan : Scan) (fault : Option DbError) (now : DateTime) (parentPath : Str) (c : MetadataCache) :
    Except Abort (List CachedFile) :=
  (c.read fault now (listFiles scan c.accountId none)).map fun allFiles =>
    (allFiles.filter fun f => isChild (childPrefix parentPath) f.path.asStr).map dbFileToCachedFile

end MetadataCache

/-! ## The file system -/

inductive FileType
  | directory
  | regularFile
deriving DecidableEq

/-- The attributes of a reply; the four times are seconds after 1970. -/
structure FileAttr where
  ino : UInt64
  size : UInt64
  blocks : UInt64
  atime : Nat
  mtime : Nat
  ctime : Nat
  crtime : Nat
  kind : FileType
  perm : UInt16
  nlink : UInt32
  uid : UInt32
  gid : UInt32
  rdev : UInt32
  blksize : UInt32
  flags : UInt32
deriving DecidableEq

/-- The error codes of `libc` the two handlers reply with. -/
inductive ReplyErrno
  | enoent
  | eio
  | einval
deriving DecidableEq

/-- A name of a request: text, or bytes that are not UTF-8. -/
inductive OsStr
  | utf8 (s : Str)
  | invalid (bytes : Bytes)
deriving DecidableEq

def OsStr.toStr : OsStr → Option Str
  | .utf8 s => some s
  | .invalid _ => none

/-- What a handler does: it replies, or it panics before it has; then `fuser` answers `EIO` in its place. -/
inductive Reply (α : Type)
  | ok (a : α)
  | error (e : ReplyErrno)
  | panic
deriving DecidableEq

/-- An entry of a directory reply. -/
structure DirEntry where
  ino : UInt64
  offset : Int64
  kind : FileType
  name : Str
deriving DecidableEq

structure CloudSyncFS where
  inodeManager : InodeManager
  metadataCache : MetadataCache

/-- What a handler cannot control: the clock, the order of the rows, and the faults of its statements. -/
structure FsEnv where
  now : DateTime
  scan : Scan
  inode : Fault
  file : Option DbError
  list : Option DbError
  allocate : FileId → Fault × Fault

/-- No statement fails. -/
def FsEnv.calm (now : DateTime) (scan : Scan) : FsEnv := ⟨now, scan, none, none, none, fun _ => (none, none)⟩

namespace FsEnv

variable (now : DateTime) (scan : Scan)

@[simp] theorem calm_now : (calm now scan).now = now := rfl

@[simp] theorem calm_scan : (calm now scan).scan = scan := rfl

@[simp] theorem calm_inode : (calm now scan).inode = none := rfl

@[simp] theorem calm_file : (calm now scan).file = none := rfl

@[simp] theorem calm_list : (calm now scan).list = none := rfl

@[simp] theorem calm_allocate (fileId : FileId) : (calm now scan).allocate fileId = (none, none) := rfl

end FsEnv

namespace CloudSyncFS

def kindOf (file : CachedFile) : FileType := if file.isDirectory then .directory else .regularFile

/-- `UNIX_EPOCH + Duration::from_secs(secs as u64)`: a negative time becomes one past the range of
`SystemTime`, and the addition panics. -/
def systemTime (secs : Int) : Option Nat := if 0 ≤ secs then some secs.toNat else none

def cachedFileToAttr (file : CachedFile) (inode : UInt64) : Option FileAttr :=
  (systemTime file.modifiedTime.timestamp).map fun mtime =>
    { ino := inode
      size := file.size
      -- `div_ceil(512)`
      blocks := file.size / 512 + if file.size % 512 = 0 then 0 else 1
      atime := mtime
      mtime := mtime
      ctime := mtime
      crtime := mtime
      kind := kindOf file
      perm := if file.isDirectory then 0o755 else 0o644
      nlink := 1
      uid := 1000
      gid := 1000
      rdev := 0
      blksize := 4096
      flags := 0 }

/-- The path of the parent as `lookup` finds it: the root has one of its own only without a row. -/
def parentPath (env : FsEnv) (parent : UInt64) (fs : CloudSyncFS) : Reply Str :=
  match fs.inodeManager.getFileId env.inode parent with
  | .ok (some parentFileId) => match fs.metadataCache.get env.file env.now parentFileId with
    | .ok (some f) => .ok f.path
    | .error .panic => .panic
    | _ => if parent = fuseRootInode then .ok ['/'] else .error .enoent
  | _ => .error .enoent

def lookup (env : FsEnv) (parent : UInt64) (name : OsStr) (fs : CloudSyncFS) : Reply FileAttr × CloudSyncFS :=
  match name.toStr with
  | none => (.error .einval, fs)
  | some nameStr => match fs.parentPath env parent with
    | .error e => (.error e, fs)
    | .panic => (.panic, fs)
    | .ok path => match fs.metadataCache.getChildren env.scan env.list env.now path with
      | .error .panic => (.panic, fs)
      | .error (.err _) => (.error .eio, fs)
      | .ok children => match children.find? fun child => child.name = nameStr with
        | none => (.error .enoent, fs)
        | some child =>
          match fs.inodeManager.getOrAllocate (env.allocate child.fileId).1 (env.allocate child.fileId).2
              child.fileId with
          | (.error _, m) => (.error .eio, { fs with inodeManager := m })
          | (.ok inode, m) => match cachedFileToAttr child inode with
            | some attr => (.ok attr, { fs with inodeManager := m })
            | none => (.panic, { fs with inodeManager := m })

/-- The path of the directory as `readdir` finds it. -/
def dirPath (env : FsEnv) (ino : UInt64) (fs : CloudSyncFS) : Reply Str :=
  if ino = fuseRootInode then .ok ['/']
  else match fs.inodeManager.getFileId env.inode ino with
    | .ok (some dirFileId) => match fs.metadataCache.get env.file env.now dirFileId with
      | .ok (some f) => .ok f.path
      | .error .panic => .panic
      | _ => .error .enoent
    | _ => .error .enoent

/-- The loop over the children: a child whose allocation fails is left out. -/
def childEntries (allocate : FileId → Fault × Fault) :
    List CachedFile → InodeManager → List (UInt64 × FileType × Str) × InodeManager
  | [], m => ([], m)
  | child :: children, m =>
    match m.getOrAllocate (allocate child.fileId).1 (allocate child.fileId).2 child.fileId with
    | (.error _, m) => childEntries allocate children m
    | (.ok childIno, m) =>
      ((childIno, kindOf child, child.name) :: (childEntries allocate children m).1,
        (childEntries allocate children m).2)

/-- The last loop of `readdir`: entries are added, with the offset after each, while the buffer has room. -/
def addEntries (room : List DirEntry → DirEntry → Bool) (added : List DirEntry) :
    List ((UInt64 × FileType × Str) × Nat) → List DirEntry
  | [] => added
  | ((ino, kind, name), i) :: entries =>
    let entry : DirEntry := ⟨ino, Int64.ofNat (i + 1), kind, name⟩
    if room added entry then addEntries room (added ++ [entry]) entries else added

def readdir (env : FsEnv) (ino : UInt64) (offset : Int64) (room : List DirEntry → DirEntry → Bool) (fs : CloudSyncFS) :
    Reply (List DirEntry) × CloudSyncFS :=
  match fs.dirPath env ino with
  | .error e => (.error e, fs)
  | .panic => (.panic, fs)
  | .ok path => match fs.metadataCache.getChildren env.scan env.list env.now path with
    | .error .panic => (.panic, fs)
    | .error (.err _) => (.error .eio, fs)
    | .ok children =>
      let (listed, m) := childEntries env.allocate children fs.inodeManager
      let entries := [(ino, FileType.directory, ['.']), (fuseRootInode, FileType.directory, ['.', '.'])] ++ listed
      (.ok (addEntries room [] (entries.zipIdx.drop offset.toUInt64.toNat)), { fs with inodeManager := m })

end CloudSyncFS

end CloudSync
