/-
The file handles of `CloudSyncFS`: `open` downloads a file to the cache and numbers a handle for its path, `read` reads
there, `release` forgets the handle. Once a copy is on the disk no request changes it, so every read through a handle
is one of what was there when the handle was opened, whatever is synced or downloaded in between.
-/
import CloudSync.Lib.PartReads
import CloudSync.Vfs.Attributes
import CloudSync.Vfs.CacheContent

namespace CloudSync

open Prog (exec)
open PartReads (PartRead)
open ContentCache (ensureDownloaded cachePlace cachedPath)

/-! ## Reads of a cached file -/

/-- What the operating system does for a read: how many of the bytes there are it returns, and whether one of the calls
fails. -/
structure ReadSys where
  count : Nat → Nat
  le : ∀ n, count n ≤ n
  pos : ∀ n, 0 < n → 0 < count n
  fault : Bool

/-- All the bytes there are. -/
def ReadSys.whole : ReadSys := ⟨id, fun n => Nat.le_refl n, fun _ h => h, false⟩

namespace ContentCache

/-- `SeekFrom::Start`: an offset that is no `off_t` is refused. -/
def seekStart (offset : UInt64) : Option Nat := if offset.toNat < 2 ^ 63 then some offset.toNat else none

/-- Opening what is at a path, seeking and reading; a directory can be opened but not read. -/
def readNode (sys : ReadSys) (node : Option Node) (offset : Int64) (size : UInt32) : Except Errno Bytes :=
  if sys.fault then .error .eio
  else match node with
    | none => .error .eio
    | some node => match seekStart offset.toUInt64 with
      | none => .error .eio
      | some pos => match node with
        | .dir => .error .eio
        | .file content =>
          .ok ((content.drop pos).take (sys.count (min size.toNat (content.length - pos))))

def readFileAt (env : CacheEnv) (sys : ReadSys) (path : UnixPath.Text) (offset : Int64) (size : UInt32)
    (w : CacheWorld) : Except Errno Bytes :=
  readNode sys (w.files (env.place path)) offset size

theorem seekStart_eq_some {offset : Int64} {pos : Nat} (h : seekStart offset.toUInt64 = some pos) :
    offset.toInt = pos := by
  unfold seekStart at h
  split at h
  · rename_i hlt
    cases h
    have hint : offset.toInt = offset.toUInt64.toNat := by
      show offset.toBitVec.toInt = (offset.toBitVec.toNat : Int)
      rw [BitVec.toInt_eq_toNat_cond, if_pos]
      have hlt : offset.toBitVec.toNat < 2 ^ 63 := hlt
      omega
    exact hint
  · cases h

/-- What a read returns is a part of the file from the offset on. -/
theorem readNode_of {sys : ReadSys} {content data : Bytes} {offset : Int64} {size : UInt32}
    (h : readNode sys (some (.file content)) offset size = .ok data) :
    PartRead.Of content ⟨offset.toInt.toNat, size.toNat, data⟩ := by
  unfold readNode at h
  split at h
  · cases h
  simp only at h
  split at h
  · cases h
  · rename_i pos hpos
    cases h
    rw [seekStart_eq_some hpos, Int.toNat_natCast]
    refine PartRead.of_take ?_ fun hsize hleft => ?_
    · exact (sys.le _).trans (Nat.min_le_left _ _)
    · exact sys.pos _ (lt_min hsize (Nat.sub_pos_of_lt hleft))

end ContentCache

/-! ## The handlers -/

/-- The error codes of `libc` the handlers of a file reply with, and those the cache has returned. -/
inductive FileErrno
  | enoent
  | eisdir
  | enosys
  | ebadf
  | cache (e : Errno)
deriving DecidableEq

/-- What a handler of a file does: it replies, or it panics. -/
inductive FileReply (α : Type)
  | ok (a : α)
  | error (e : FileErrno)
  | panic
deriving DecidableEq

/-- An open file handle backed by a cached local file. -/
structure OpenFile where
  path : UnixPath.Text
deriving DecidableEq

/-- `CloudSyncFS` with its content cache and its open files; the cache has the database and the local disk, and
`contentCache` is its root. -/
structure MountedFS where
  inodeManager : InodeManager
  accountId : AccountId
  contentCache : Option UnixPath.Text
  cache : CacheWorld
  openFiles : UInt64 → Option OpenFile
  nextFh : UInt64

namespace MountedFS

/-- A file system before its first request. -/
def fresh (contentCache : Option UnixPath.Text) (inodeManager : InodeManager) (accountId : AccountId) (db : Database)
    (files : List UnixPath.Text → Option Node) : MountedFS where
  inodeManager := inodeManager
  accountId := accountId
  contentCache := contentCache
  cache := ⟨db, files, fun _ => none, 0, 0⟩
  openFiles := fun _ => none
  nextFh := 1

/-- `CloudSyncFS::new`, with the manager that `InodeManager::new` has returned. -/
def new (inodeManager : InodeManager) (accountId : AccountId) (db : Database)
    (files : List UnixPath.Text → Option Node) : MountedFS :=
  fresh none inodeManager accountId db files

/-- `CloudSyncFS::with_sync_handle`: the copies are in a directory of the provider. -/
def withSyncHandle (fileCacheDir : UnixPath.Text) (providerId : Str) (inodeManager : InodeManager)
    (accountId : AccountId) (db : Database) (files : List UnixPath.Text → Option Node) : MountedFS :=
  fresh (some (UnixPath.join fileCacheDir providerId)) inodeManager accountId db files

/-- What the handlers of names and attributes work on. -/
def fs (s : MountedFS) : CloudSyncFS := ⟨s.inodeManager, ⟨s.cache.db, s.accountId⟩⟩

variable (env : CacheEnv)

/-- The handler `open`. -/
def openFile (e : FsEnv) (ino : UInt64) (s : MountedFS) : FileReply UInt64 × MountedFS :=
  match s.inodeManager.getFileId e.inode ino with
  | .ok (some fileId) => match s.fs.metadataCache.get e.file e.now fileId with
    | .ok (some file) =>
      if file.isDirectory then (.error .eisdir, s)
      else match s.contentCache with
        | none => (.error .enosys, s)
        | some cacheRoot => match exec env.handler (ensureDownloaded cacheRoot s.accountId fileId) s.cache with
          | (.error (.errno e), cache) => (.error (.cache e), { s with cache := cache })
          | (.error .panic, cache) => (.panic, { s with cache := cache })
          | (.ok cachedPath, cache) =>
            (.ok s.nextFh, { s with
              cache := cache
              openFiles := Function.update s.openFiles s.nextFh (some ⟨cachedPath⟩)
              nextFh := s.nextFh + 1 })
    | .error .panic => (.panic, s)
    | _ => (.error .enoent, s)
  | _ => (.error .enoent, s)

def read (sys : ReadSys) (fh : UInt64) (offset : Int64) (size : UInt32) (s : MountedFS) : FileReply Bytes :=
  match s.openFiles fh with
  | none => .error .ebadf
  | some openFile => match s.contentCache with
    | none => .error .enosys
    | some _ => match ContentCache.readFileAt env sys openFile.path offset size s.cache with
      | .ok data => .ok data
      | .error e => .error (.cache e)

def release (fh : UInt64) (s : MountedFS) : MountedFS :=
  { s with openFiles := Function.update s.openFiles fh none }

end MountedFS

/-! ## Sessions -/

/-- A request of the kernel. -/
inductive FsRequest
  | lookup (e : FsEnv) (parent : UInt64) (name : OsStr)
  | getattr (e : FsEnv) (ino : UInt64)
  | readdir (e : FsEnv) (ino : UInt64) (offset : Int64) (room : List DirEntry → DirEntry → Bool)
  | openFile (e : FsEnv) (ino : UInt64)
  | read (sys : ReadSys) (fh : UInt64) (offset : Int64) (size : UInt32)
  | release (fh : UInt64)

inductive FsReply
  | attr (r : Reply FileAttr)
  | entries (r : Reply (List DirEntry))
  | opened (r : FileReply UInt64)
  | data (r : FileReply Bytes)
  | empty
deriving DecidableEq

def FsReply.panics : FsReply → Bool
  | .attr .panic | .entries .panic | .opened .panic | .data .panic => true
  | _ => false

/-- A request, or sections of other threads on the database between two requests. -/
inductive FsEvent
  | request (r : FsRequest)
  | background (write : Database → Database)

/-- The file system, whether its session still takes requests, and what was replied so far. -/
structure MountSession where
  mounted : MountedFS
  running : Bool
  served : List (FsRequest × FsReply)

namespace MountSession

variable (env : CacheEnv)

def answer (s : MountedFS) : FsRequest → FsReply × MountedFS
  | .lookup e parent name =>
    let (r, fs) := s.fs.lookup e parent name
    (.attr r, { s with inodeManager := fs.inodeManager })
  | .getattr e ino => (.attr (s.fs.getattr e ino), s)
  | .readdir e ino offset room =>
    let (r, fs) := s.fs.readdir e ino offset room
    (.entries r, { s with inodeManager := fs.inodeManager })
  | .openFile e ino =>
    let (r, s) := s.openFile env e ino
    (.opened r, s)
  | .read sys fh offset size => (.data (s.read env sys fh offset size), s)
  | .release fh => (.empty, s.release fh)

def start (mounted : MountedFS) : MountSession := ⟨mounted, true, []⟩

/-- Requests are served one after the other; a handler that panics ends the session. -/
def step (s : MountSession) : FsEvent → MountSession
  | .request r =>
    if s.running then
      let (reply, mounted) := answer env s.mounted r
      ⟨mounted, !reply.panics, s.served ++ [(r, reply)]⟩
    else s
  | .background write =>
    { s with mounted := { s.mounted with cache := { s.mounted.cache with db := write s.mounted.cache.db } } }

def run (s : MountSession) (events : List FsEvent) : MountSession := events.foldl (step env) s

/-! ## What a request does -/

/-- What a request can do: an `open` is refused before it comes to the cache, fails with the cache, or numbers a handle
for the path that the cache has returned. -/
inductive Moves (s : MountedFS) : FsRequest → FsReply → MountedFS → Prop
  | lookup (e : FsEnv) (parent : UInt64) (name : OsStr) :
    Moves s (.lookup e parent name) (.attr (s.fs.lookup e parent name).1)
      { s with inodeManager := (s.fs.lookup e parent name).2.inodeManager }
  | getattr (e : FsEnv) (ino : UInt64) : Moves s (.getattr e ino) (.attr (s.fs.getattr e ino)) s
  | readdir (e : FsEnv) (ino : UInt64) (offset : Int64) (room : List DirEntry → DirEntry → Bool) :
    Moves s (.readdir e ino offset room) (.entries (s.fs.readdir e ino offset room).1)
      { s with inodeManager := (s.fs.readdir e ino offset room).2.inodeManager }
  | refused {e : FsEnv} {ino : UInt64} {reply : FileReply UInt64} (h : ∀ fh, reply ≠ .ok fh) :
    Moves s (.openFile e ino) (.opened reply) s
  | failed {e : FsEnv} {ino : UInt64} {reply : FileReply UInt64} {cacheRoot : UnixPath.Text} {fileId : FileId}
      {stop : CacheStop} {cache : CacheWorld} (hid : s.inodeManager.getFileId e.inode ino = .ok (some fileId))
      (hcache : s.contentCache = some cacheRoot)
      (hrun : exec env.handler (ensureDownloaded cacheRoot s.accountId fileId) s.cache = (.error stop, cache))
      (h : ∀ fh, reply ≠ .ok fh) :
    Moves s (.openFile e ino) (.opened reply) { s with cache := cache }
  | opened {e : FsEnv} {ino : UInt64} {cacheRoot path : UnixPath.Text} {fileId : FileId} {cache : CacheWorld}
      (hid : s.inodeManager.getFileId e.inode ino = .ok (some fileId)) (hcache : s.contentCache = some cacheRoot)
      (hrun : exec env.handler (ensureDownloaded cacheRoot s.accountId fileId) s.cache = (.ok path, cache)) :
    Moves s (.openFile e ino) (.opened (.ok s.nextFh))
      { s with
        cache := cache
        openFiles := Function.update s.openFiles s.nextFh (some ⟨path⟩)
        nextFh := s.nextFh + 1 }
  | read (sys : ReadSys) (fh : UInt64) (offset : Int64) (size : UInt32) :
    Moves s (.read sys fh offset size) (.data (s.read env sys fh offset size)) s
  | release (fh : UInt64) : Moves s (.release fh) .empty (s.release fh)

theorem openFile_moves (s : MountedFS) (e : FsEnv) (ino : UInt64) :
    Moves env s (.openFile e ino) (.opened (s.openFile env e ino).1) (s.openFile env e ino).2 := by
  unfold MountedFS.openFile
  split
  · rename_i fileId hid
    split
    · split
      · exact .refused (by intro fh h; cases h)
      · split
        · exact .refused (by intro fh h; cases h)
        · rename_i cacheRoot hcache
          split
          · rename_i hrun
            exact .failed hid hcache hrun (by intro fh h; cases h)
          · rename_i hrun
            exact .failed hid hcache hrun (by intro fh h; cases h)
          · rename_i hrun
            exact .opened hid hcache hrun
    · exact .refused (by intro fh h; cases h)
    · exact .refused (by intro fh h; cases h)
  · exact .refused (by intro fh h; cases h)

theorem answer_moves (s : MountedFS) (r : FsRequest) : Moves env s r (answer env s r).1 (answer env s r).2 := by
  cases r with
  | lookup e parent name => exact .lookup e parent name
  | getattr e ino => exact .getattr e ino
  | readdir e ino offset room => exact .readdir e ino offset room
  | openFile e ino => exact openFile_moves env s e ino
  | read sys fh offset size => exact .read sys fh offset size
  | release fh => exact .release fh

/-! ## The open handles -/

/-- The handle a served request has opened. -/
def handleOpened : FsRequest × FsReply → Option UInt64
  | (.openFile _ _, .opened (.ok fh)) => some fh
  | _ => none

/-- The handle a served request has released. -/
def handleReleased : FsRequest × FsReply → Option UInt64
  | (.release fh, _) => some fh
  | _ => none

/-- What was served since the handle was opened, one request later. -/
def sinceNext (fh : UInt64) (since : Option (List (FsRequest × FsReply))) (entry : FsRequest × FsReply) :
    Option (List (FsRequest × FsReply)) :=
  if handleOpened entry = some fh then some []
  else if handleReleased entry = some fh then none
  else since.map (· ++ [entry])

/-- What was served since the handle was opened, if it was and has not been released. -/
def since (fh : UInt64) (served : List (FsRequest × FsReply)) : Option (List (FsRequest × FsReply)) :=
  served.foldl (sinceNext fh) none

theorem since_concat (fh : UInt64) (served : List (FsRequest × FsReply)) (entry : FsRequest × FsReply) :
    since fh (served ++ [entry]) = sinceNext fh (since fh served) entry := by
  unfold since
  rw [List.foldl_append]
  rfl

/-- The handle was opened there, and neither opened again nor released after. -/
def OpenSince (fh : UInt64) (served post : List (FsRequest × FsReply)) : Prop :=
  ∃ pre entry, served = pre ++ entry :: post ∧ handleOpened entry = some fh ∧
    ∀ later ∈ post, handleOpened later ≠ some fh ∧ handleReleased later ≠ some fh

/-- One request later the handle was just opened, or it was open and the request neither opens nor releases it. -/
theorem openSince_concat {fh : UInt64} {served post : List (FsRequest × FsReply)} {last : FsRequest × FsReply} :
    OpenSince fh (served ++ [last]) post ↔ handleOpened last = some fh ∧ post = [] ∨
      handleOpened last ≠ some fh ∧ handleReleased last ≠ some fh ∧
        ∃ before, OpenSince fh served before ∧ before ++ [last] = post := by
  constructor
  · rintro ⟨pre, entry, hserved, hentry, hpost⟩
    rcases List.eq_nil_or_concat' post with rfl | ⟨before, x, rfl⟩
    · obtain ⟨-, rfl⟩ := List.append_singleton_inj.1 hserved
      exact .inl ⟨hentry, rfl⟩
    · have hsplit : served ++ [last] = (pre ++ entry :: before) ++ [x] := by
        rw [hserved, List.append_assoc, List.cons_append]
      obtain ⟨rfl, rfl⟩ := List.append_singleton_inj.1 hsplit
      obtain ⟨hopened, hreleased⟩ := hpost last List.mem_concat_self
      exact .inr ⟨hopened, hreleased, before,
        ⟨pre, entry, rfl, hentry, fun later hmem => hpost later (List.mem_append_left _ hmem)⟩, rfl⟩
  · rintro (⟨hopened, rfl⟩ | ⟨hopened, hreleased, before, ⟨pre, entry, rfl, hentry, hlater⟩, rfl⟩)
    · exact ⟨served, last, rfl, hopened, fun _ h => by cases h⟩
    · refine ⟨pre, entry, by rw [List.append_assoc, List.cons_append], hentry, fun later hmem => ?_⟩
      rcases List.mem_append.1 hmem with hmem | hmem
      · exact hlater later hmem
      · rw [List.mem_singleton.1 hmem]
        exact ⟨hopened, hreleased⟩

theorem since_eq_some {fh : UInt64} {served post : List (FsRequest × FsReply)} :
    since fh served = some post ↔ OpenSince fh served post := by
  induction served using List.reverseRecOn generalizing post with
  | nil =>
    refine iff_of_false (fun h => by cases h) ?_
    rintro ⟨pre, entry, h, -⟩
    exact absurd h.symm (List.append_ne_nil_of_right_ne_nil pre (List.cons_ne_nil entry post))
  | append_singleton served last ih =>
    rw [since_concat, sinceNext, openSince_concat]
    by_cases hopened : handleOpened last = some fh
    · rw [if_pos hopened]
      simp [hopened, eq_comm]
    · rw [if_neg hopened]
      by_cases hreleased : handleReleased last = some fh
      · rw [if_pos hreleased]
        simp [hopened, hreleased]
      · rw [if_neg hreleased, Option.map_eq_some_iff]
        simp [hopened, hreleased, ih]

/-- What a request does to the handles. -/
theorem Moves.handles {env : CacheEnv} {s s' : MountedFS} {r : FsRequest} {reply : FsReply}
    (h : Moves env s r reply s') :
    (∃ path, handleOpened (r, reply) = some s.nextFh ∧ s'.nextFh = s.nextFh + 1 ∧
        s'.openFiles = Function.update s.openFiles s.nextFh (some ⟨path⟩)) ∨
      handleOpened (r, reply) = none ∧ s'.nextFh = s.nextFh ∧
        ((∃ fh, handleReleased (r, reply) = some fh ∧ s'.openFiles = Function.update s.openFiles fh none) ∨
          handleReleased (r, reply) = none ∧ s'.openFiles = s.openFiles) := by
  cases h with
  | lookup | getattr | readdir | read => exact .inr ⟨rfl, rfl, .inr ⟨rfl, rfl⟩⟩
  | @refused e ino reply h | @failed e ino reply _ _ _ _ _ _ _ h =>
    refine .inr ⟨?_, rfl, .inr ⟨rfl, rfl⟩⟩
    cases reply with
    | ok fh => exact absurd rfl (h fh)
    | error | panic => rfl
  | opened => exact .inl ⟨_, rfl, rfl, rfl⟩
  | release fh => exact .inr ⟨rfl, rfl, .inl ⟨fh, rfl, rfl⟩⟩

/-- The handles that were opened, in order. -/
def handles (served : List (FsRequest × FsReply)) : List UInt64 := served.filterMap handleOpened

/-- The first numbers from 1 on. -/
def firstHandles (n : Nat) : List UInt64 := (List.range' 1 n).map UInt64.ofNat

theorem firstHandles_succ (n : Nat) : firstHandles (n + 1) = firstHandles n ++ [UInt64.ofNat (n + 1)] := by
  unfold firstHandles
  rw [List.range'_concat, List.map_append, Nat.one_mul, Nat.add_comm 1 n]
  rfl

/-- Below 2^64 no number comes twice, and none is 0. -/
theorem firstHandles_nodup {n : Nat} (h : n < 2 ^ 64) : (firstHandles n).Nodup ∧ 0 ∉ firstHandles n := by
  have hval : ∀ k ∈ List.range' 1 n, 1 ≤ k ∧ (UInt64.ofNat k).toNat = k := by
    intro k hk
    have hrange := List.mem_range'_1.1 hk
    have hlt : k < UInt64.size := by show k < 2 ^ 64; omega
    exact ⟨hrange.1, UInt64.toNat_ofNat_of_lt' hlt⟩
  constructor
  · refine List.Nodup.map_on (fun a ha b hb hab => ?_) (List.nodup_range' 1)
    have := congrArg UInt64.toNat hab
    rwa [(hval a ha).2, (hval b hb).2] at this
  · intro hzero
    obtain ⟨k, hk, heq⟩ := List.mem_map.1 hzero
    have hone := hval k hk
    rw [heq] at hone
    have hnat : (0 : UInt64).toNat = 0 := rfl
    omega

/-- The open files are those whose handle was opened and not released since, and the counter counts the handles. -/
structure Numbered (s : MountSession) : Prop where
  next : s.mounted.nextFh = UInt64.ofNat ((handles s.served).length + 1)
  numbers : handles s.served = firstHandles (handles s.served).length
  isOpen : ∀ fh, (s.mounted.openFiles fh).isSome = (since fh s.served).isSome

theorem Numbered.step {env : CacheEnv} {s : MountSession} (h : s.Numbered) (event : FsEvent) :
    (s.step env event).Numbered := by
  cases event with
  | background write => exact ⟨h.next, h.numbers, h.isOpen⟩
  | request r =>
    unfold MountSession.step
    simp only
    split
    · have hmoves := (answer_moves env s.mounted r).handles
      generalize (answer env s.mounted r).1 = reply at *
      generalize (answer env s.mounted r).2 = mounted at *
      have hconcat : handles (s.served ++ [(r, reply)]) = handles s.served ++ (handleOpened (r, reply)).toList := by
        unfold handles
        rw [List.filterMap_append]
        cases hopened : handleOpened (r, reply) with
        | none => simp [hopened]
        | some fh => simp [hopened]
      rcases hmoves with ⟨path, hopened, hnext, hfiles⟩ | ⟨hopened, hnext, hrest⟩
      · rw [hopened] at hconcat
        have hlength : (handles (s.served ++ [(r, reply)])).length = (handles s.served).length + 1 := by
          rw [hconcat, List.length_append]
          rfl
        refine ⟨?_, ?_, fun fh => ?_⟩
        · show mounted.nextFh = UInt64.ofNat ((handles (s.served ++ [(r, reply)])).length + 1)
          rw [hlength, hnext, h.next]
          exact (UInt64.ofNat_add _ 1).symm
        · show handles (s.served ++ [(r, reply)]) = firstHandles (handles (s.served ++ [(r, reply)])).length
          rw [hlength, firstHandles_succ, ← h.numbers, hconcat, h.next]
          rfl
        · show (mounted.openFiles fh).isSome = (since fh (s.served ++ [(r, reply)])).isSome
          rw [since_concat, sinceNext, hopened, hfiles]
          by_cases hfh : fh = s.mounted.nextFh
          · rw [hfh, Function.update_self, if_pos rfl]
            rfl
          · have hreleased : handleReleased (r, reply) = none := by
              cases r <;> first | rfl | cases hopened
            rw [Function.update_of_ne hfh, if_neg fun heq => hfh (Option.some.inj heq).symm, hreleased,
              if_neg (Option.some_ne_none fh).symm, h.isOpen fh, Option.isSome_map]
      · rw [hopened] at hconcat
        have hsame : handles (s.served ++ [(r, reply)]) = handles s.served := hconcat.trans (List.append_nil _)
        refine ⟨?_, ?_, fun fh => ?_⟩
        · show mounted.nextFh = UInt64.ofNat ((handles (s.served ++ [(r, reply)])).length + 1)
          rw [hsame, hnext, h.next]
        · show handles (s.served ++ [(r, reply)]) = firstHandles (handles (s.served ++ [(r, reply)])).length
          rw [hsame]
          exact h.numbers
        · show (mounted.openFiles fh).isSome = (since fh (s.served ++ [(r, reply)])).isSome
          rw [since_concat, sinceNext, hopened, if_neg (Option.some_ne_none fh).symm]
          rcases hrest with ⟨fh', hreleased, hfiles⟩ | ⟨hreleased, hfiles⟩
          · rw [hreleased, hfiles]
            by_cases hfh : fh = fh'
            · rw [hfh, Function.update_self, if_pos rfl]
              rfl
            · rw [Function.update_of_ne hfh, if_neg fun heq => hfh (Option.some.inj heq).symm, h.isOpen fh,
                Option.isSome_map]
          · rw [hreleased, hfiles, if_neg (Option.some_ne_none fh).symm, h.isOpen fh, Option.isSome_map]
    · exact h

theorem start_numbered (contentCache : Option UnixPath.Text) (inodeManager : InodeManager) (accountId : AccountId)
    (db : Database) (files : List UnixPath.Text → Option Node) :
    (start (MountedFS.fresh contentCache inodeManager accountId db files)).Numbered where
  next := rfl
  numbers := rfl
  isOpen _ := rfl

theorem run_numbered (env : CacheEnv) {s : MountSession} (h : s.Numbered) (events : List FsEvent) :
    (s.run env events).Numbered := by
  induction events generalizing s with
  | nil => exact h
  | cons event events ih => exact ih (h.step event)

/-- A read is refused exactly when no file is open for its handle. -/
theorem read_ebadf_iff (env : CacheEnv) (s : MountedFS) (sys : ReadSys) (fh : UInt64) (offset : Int64) (size : UInt32) :
    s.read env sys fh offset size = .error .ebadf ↔ s.openFiles fh = none := by
  unfold MountedFS.read
  cases s.openFiles fh with
  | none => exact iff_of_true rfl rfl
  | some file =>
    refine iff_of_false (fun h => ?_) (Option.some_ne_none file)
    simp only at h
    split at h
    · cases h
    · split at h <;> cases h

/-- In every session of a new file system, whatever other threads do to the database: a read is refused for its handle
exactly when the handle was not opened or has been released since; and before the counter wraps no handle is given
twice. -/
theorem open_handles (env : CacheEnv) (contentCache : Option UnixPath.Text) (inodeManager : InodeManager)
    (accountId : AccountId) (db : Database) (files : List UnixPath.Text → Option Node) (events : List FsEvent)
    (s : MountSession)
    (hs : s = (start (MountedFS.fresh contentCache inodeManager accountId db files)).run env events) :
    (∀ sys fh offset size, s.mounted.read env sys fh offset size = .error .ebadf ↔
        ¬ ∃ post, OpenSince fh s.served post) ∧
      ((handles s.served).length < 2 ^ 64 → (handles s.served).Nodup ∧ 0 ∉ handles s.served) := by
  have h : s.Numbered := hs ▸ run_numbered env (start_numbered contentCache inodeManager accountId db files) events
  refine ⟨fun sys fh offset size => ?_, fun hlt => ?_⟩
  · rw [read_ebadf_iff]
    have hopen := h.isOpen fh
    cases hsince : since fh s.served with
    | none =>
      rw [hsince, Option.isSome_none] at hopen
      refine iff_of_true (Option.isNone_iff_eq_none.1 (Option.isSome_eq_false_iff.1 hopen)) ?_
      rintro ⟨post, hpost⟩
      rw [← since_eq_some, hsince] at hpost
      cases hpost
    | some post =>
      rw [hsince, Option.isSome_some] at hopen
      refine iff_of_false (fun hnone => ?_) (not_not.2 ⟨post, since_eq_some.1 hsince⟩)
      rw [hnone] at hopen
      cases hopen
  · rw [h.numbers]
    exact firstHandles_nodup hlt

/-! ## A session -/

/-- Every download leaves three bytes. -/
def threeBytes : CacheEnv := ContentCache.calm fun _ _ => (.ok (), some [1, 2, 3])

/-- The mount of a file with the number 2, and nothing on the local disk. -/
def sampleMount : MountedFS :=
  .withSyncHandle ['/', 'c'] ['g'] (CloudSyncFS.datedFs DateTime.epoch).inodeManager sampleAccount
    (CloudSyncFS.datedFs DateTime.epoch).metadataCache.db fun _ => none

/-- The file is opened, read in two parts up to its end, released, and opened again. -/
def sampleEvents : List FsEvent :=
  [.request (.openFile (FsEnv.calm DateTime.epoch Scan.byRowid) 2), .request (.read .whole 1 0 2),
    .background fun _ => Database.empty [], .request (.read .whole 1 2 2), .request (.read .whole 1 3 2),
    .request (.release 1)]

example : ((start sampleMount).run threeBytes sampleEvents).served.map Prod.snd =
    [.opened (.ok 1), .data (.ok [1, 2]), .data (.ok [3]), .data (.ok []), .empty] := by
  decide +kernel

theorem open_handles_sample :
    ((start sampleMount).run threeBytes sampleEvents).mounted.read threeBytes .whole 1 0 2 = .error .ebadf ↔
      ¬ ∃ post, OpenSince 1 ((start sampleMount).run threeBytes sampleEvents).served post :=
  (open_handles threeBytes (some (UnixPath.join ['/', 'c'] ['g'])) (CloudSyncFS.datedFs DateTime.epoch).inodeManager
    sampleAccount (CloudSyncFS.datedFs DateTime.epoch).metadataCache.db (fun _ => none) sampleEvents _ rfl).1
    .whole 1 0 2

end MountSession

end CloudSync
