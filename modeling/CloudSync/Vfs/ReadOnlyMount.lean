/-
What a mount writes. Over a whole session its requests change the status of the files they open and number inodes, and
nothing else: the metadata of every row, the rows of the other files and accounts, the accounts, the cursors and the
copies on the local disk stay as they were.
-/
import CloudSync.Vfs.HandleReads
import CloudSync.Vfs.RowWrites

namespace CloudSync

open Prog (exec)
open ContentCache (ensureDownloaded cachePlace sectionDb finishDb downloadDb fileStateSection syncedAtSection
  exec_ensureDownloaded_present exec_ensureDownloaded_download)

/-! ## Writes of the status -/

/-- What a status write keeps of a row: its id, its time of creation, and the metadata as they are read back. -/
def FileRow.kept (r : FileRow) : Int × Int × Metadata := (r.id, r.createdAt, RowWrite.readMetadata r)

/-- Only rows of these files of the account differ, and only in their status, as far as their metadata are read
back. -/
structure Database.StatusOnly (account : AccountId) (touched : FileId → Prop) (db db' : Database) : Prop where
  accounts : db'.accounts = db.accounts
  cursors : db'.cursors = db.cursors
  others : ∀ key, (∀ id, touched id → key ≠ (account.val, id.val)) → db'.files.rowAt key = db.files.rowAt key
  kept : ∀ key, (db'.files.rowAt key).map FileRow.kept = (db.files.rowAt key).map FileRow.kept

namespace Database.StatusOnly

variable {account : AccountId} {touched touched' : FileId → Prop} {db db' db'' : Database}

theorem refl : db.StatusOnly account touched db := ⟨rfl, rfl, fun _ _ => rfl, fun _ => rfl⟩

theorem trans (h : db.StatusOnly account touched db') (h' : db'.StatusOnly account touched db'') :
    db.StatusOnly account touched db'' where
  accounts := h'.accounts.trans h.accounts
  cursors := h'.cursors.trans h.cursors
  others key hkey := (h'.others key hkey).trans (h.others key hkey)
  kept key := (h'.kept key).trans (h.kept key)

theorem mono (h : db.StatusOnly account touched db') (hsub : ∀ id, touched id → touched' id) :
    db.StatusOnly account touched' db' :=
  ⟨h.accounts, h.cursors, fun key hkey => h.others key fun id hid => hkey id (hsub id hid), h.kept⟩

end Database.StatusOnly

section

variable {account : AccountId} {id : FileId}

/-- A section that edits the status of a file. -/
theorem editSection_statusOnly (edit : DateTime → File → File) (hid : ∀ now f, (edit now f).id = f.id)
    (hacc : ∀ now f, (edit now f).accountId = f.accountId)
    (hfid : ∀ now f, (edit now f).providerFileId = f.providerFileId) {now : DateTime}
    {w : DateTime × StatusWrite}
    (hrow : ∀ g : File, ({ edit now g.stored with updatedAt := now, createdAt := g.createdAt } : File).toRow =
      RowWrite.onRow g.toRow (.inr w)) (db : Database) :
    db.StatusOnly account (· = id) (ContentCache.editSection account id edit now db).2 := by
  obtain ⟨db', hdb', h⟩ := ContentCache.editSection_spec edit hid hacc hfid account id now db
  rw [hdb']
  rcases h with ⟨-, rfl⟩ | ⟨g, hg, hsets⟩
  · exact .refl
  · have hg : db.files.rowAt (account.val, id.val) = some g.toRow := hg
    refine ⟨hsets.accounts, hsets.cursors, fun key hkey => ?_, fun key => ?_⟩
    · rw [hsets.rows, Function.update_of_ne (hkey id rfl)]
    · rw [hsets.rows]
      by_cases hkey : key = (account.val, id.val)
      · rw [hkey, Function.update_self, hg, hrow g]
        refine congrArg some ?_
        unfold FileRow.kept
        rw [RowWrite.readMetadata_status]
        rcases w with ⟨_, _ | _⟩ <;> rfl
      · rw [Function.update_of_ne hkey]

theorem fileStateSection_statusOnly (state : FileState) (now : DateTime) (db : Database) :
    db.StatusOnly account (· = id) (fileStateSection account id state now db).2 :=
  editSection_statusOnly (fun _ dbFile => { dbFile with state := state }) (fun _ _ => rfl) (fun _ _ => rfl)
    (fun _ _ => rfl) (fun g => RowWrite.toRow_state g now state) db

theorem syncedAtSection_statusOnly (now : DateTime) (db : Database) :
    db.StatusOnly account (· = id) (syncedAtSection account id now db).2 :=
  editSection_statusOnly (fun now dbFile => { dbFile with syncedAt := some now }) (fun _ _ => rfl) (fun _ _ => rfl)
    (fun _ _ => rfl) (fun g => RowWrite.toRow_syncedAt g now) db

variable (env : CacheEnv)

/-- A fault stops a section before it writes. -/
theorem sectionDb_statusOnly (n : Nat) {f : DbM Unit}
    (hf : ∀ (now : DateTime) (db : Database), db.StatusOnly account (· = id) (f now db).2) (db : Database) :
    db.StatusOnly account (· = id) (sectionDb env n f db) := by
  unfold sectionDb
  split
  · exact .refl
  · exact hf _ _

theorem downloadDb_statusOnly (n : Nat) (db : Database) (result : Except CloudError Unit) :
    db.StatusOnly account (· = id) (downloadDb env account id n db result) := by
  have hsyncing : db.StatusOnly account (· = id) (sectionDb env n (fileStateSection account id .syncing) db) :=
    sectionDb_statusOnly env n (fileStateSection_statusOnly .syncing) db
  unfold downloadDb finishDb
  split
  · exact (hsyncing.trans (sectionDb_statusOnly env _ (fileStateSection_statusOnly .synced) _)).trans
      (sectionDb_statusOnly env _ syncedAtSection_statusOnly _)
  · exact hsyncing
  · exact hsyncing.trans (sectionDb_statusOnly env _ (fileStateSection_statusOnly .error) _)

/-- A call of the cache writes the status of its file. -/
theorem ensureDownloaded_statusOnly {cacheRoot : UnixPath.Text} {w w' : CacheWorld}
    (hcompleted : w.Completed env cacheRoot) {r : Except CacheStop UnixPath.Text}
    (hrun : exec env.handler (ensureDownloaded cacheRoot account id) w = (r, w')) :
    w.db.StatusOnly account (· = id) w'.db := by
  cases hcopy : w.files (cachePlace env cacheRoot id) with
  | some node =>
    rw [exec_ensureDownloaded_present account hcopy] at hrun
    cases hrun
    exact .refl
  | none =>
    obtain ⟨sections', hdownload⟩ :=
      exec_ensureDownloaded_download account hcopy fun hlock => hcompleted id hlock hcopy
    rw [hdownload] at hrun
    cases hrun
    exact downloadDb_statusOnly env _ _ _

end

/-! ## Numbers of inodes -/

namespace InodeManager

/-- Every stored number stays. -/
def Keeps (m m' : InodeManager) : Prop := ∀ r ∈ m.db.rows, r ∈ m'.db.rows

theorem Keeps.trans {m m' m'' : InodeManager} (h : m.Keeps m') (h' : m'.Keeps m'') : m.Keeps m'' :=
  fun r hr => h' r (h r hr)

theorem getOrAllocate_keeps (select insert : Fault) (fileId : FileId) (m : InodeManager) :
    m.Keeps (m.getOrAllocate select insert fileId).2 := by
  unfold getOrAllocate
  have hcases := getOrInsertInode_cases select insert fileId.val (fun c : UInt64 => (c, c + 1)) m.db m.nextInode
  generalize getOrInsertInode select insert fileId.val (fun c : UInt64 => (c, c + 1)) m.db m.nextInode = out at hcases
  cases hcases with
  | unread | found | unwritten | taken => exact fun r hr => hr
  | inserted t' hno hrows => exact fun r hr => by rw [hrows]; exact List.mem_append_left _ hr

end InodeManager

namespace CloudSyncFS

theorem childEntries_keeps (allocate : FileId → Fault × Fault) : ∀ (children : List CachedFile) (m : InodeManager),
    m.Keeps (childEntries allocate children m).2
  | [], m => fun r hr => hr
  | child :: children, m => by
    have hchild := InodeManager.getOrAllocate_keeps (allocate child.fileId).1 (allocate child.fileId).2 child.fileId m
    unfold childEntries
    split
    · rename_i hallocate
      rw [hallocate] at hchild
      exact hchild.trans (childEntries_keeps allocate children _)
    · rename_i hallocate
      rw [hallocate] at hchild
      exact hchild.trans (childEntries_keeps allocate children _)

theorem lookup_keeps (e : FsEnv) (parent : UInt64) (name : OsStr) (fs : CloudSyncFS) :
    fs.inodeManager.Keeps (fs.lookup e parent name).2.inodeManager := by
  unfold lookup
  split
  · exact fun r hr => hr
  · split
    · exact fun r hr => hr
    · exact fun r hr => hr
    · split
      · exact fun r hr => hr
      · exact fun r hr => hr
      · split
        · exact fun r hr => hr
        · rename_i child _
          have hchild := InodeManager.getOrAllocate_keeps (e.allocate child.fileId).1 (e.allocate child.fileId).2
            child.fileId fs.inodeManager
          split
          · rename_i hallocate
            rw [hallocate] at hchild
            exact hchild
          · rename_i hallocate
            rw [hallocate] at hchild
            split <;> exact hchild

theorem readdir_keeps (e : FsEnv) (ino : UInt64) (offset : Int64) (room : List DirEntry → DirEntry → Bool)
    (fs : CloudSyncFS) : fs.inodeManager.Keeps (fs.readdir e ino offset room).2.inodeManager := by
  unfold readdir
  split
  · exact fun r hr => hr
  · exact fun r hr => hr
  · split
    · exact fun r hr => hr
    · exact fun r hr => hr
    · exact childEntries_keeps e.allocate _ fs.inodeManager

end CloudSyncFS

/-! ## Sessions -/

namespace MountSession

/-- A request has opened the number of the file. -/
def Opens (s : MountSession) (id : FileId) : Prop :=
  ∃ e ino reply, (FsRequest.openFile e ino, reply) ∈ s.served ∧
    ⟨ino.toInt64, id.val⟩ ∈ s.mounted.inodeManager.db.rows

/-- What the session has written since it was started with the mount `m`. -/
structure ReadOnly (m : MountedFS) (s : MountSession) : Prop where
  accountId : s.mounted.accountId = m.accountId
  db : m.cache.db.StatusOnly m.accountId s.Opens s.mounted.cache.db
  inodes : m.inodeManager.Keeps s.mounted.inodeManager
  disk : ∀ place node, m.cache.files place = some node → s.mounted.cache.files place = some node

variable {env : CacheEnv} {m : MountedFS}

/-- What was opened stays opened. -/
theorem Opens.next {s : MountSession} {id : FileId} (h : s.Opens id) {entry : FsRequest × FsReply} {mounted : MountedFS}
    (hkeeps : s.mounted.inodeManager.Keeps mounted.inodeManager) (running : Bool) :
    Opens ⟨mounted, running, s.served ++ [entry]⟩ id := by
  obtain ⟨e, ino, reply, hserved, hrow⟩ := h
  exact ⟨e, ino, reply, List.mem_append_left _ hserved, hkeeps _ hrow⟩

theorem mem_of_getFileId {m : InodeManager} {fault : Fault} {ino : UInt64} {fileId : FileId}
    (h : m.getFileId fault ino = .ok (some fileId)) : ⟨ino.toInt64, fileId.val⟩ ∈ m.db.rows := by
  cases fault with
  | none => exact InodeManager.getFileId_eq_some.1 h
  | some message => cases h

/-- A run of the cache for an opened file. -/
theorem ReadOnly.ensure (hleaves : ∀ fileId, ContentCache.Leaves env fileId) {s : MountSession}
    (h : s.ReadOnly m) (hcompleted : Completed env s.mounted) {cacheRoot : UnixPath.Text} {fileId : FileId}
    {r : Except CacheStop UnixPath.Text} {cache : CacheWorld} {e : FsEnv} {ino : UInt64} {reply : FsReply}
    {mounted : MountedFS} (hroot : s.mounted.contentCache = some cacheRoot)
    (hid : s.mounted.inodeManager.getFileId e.inode ino = .ok (some fileId))
    (hrun : exec env.handler (ensureDownloaded cacheRoot s.mounted.accountId fileId) s.mounted.cache = (r, cache))
    (hcache : mounted.cache = cache) (hinodes : mounted.inodeManager = s.mounted.inodeManager)
    (haccount : mounted.accountId = s.mounted.accountId) (running : Bool) :
    ReadOnly m ⟨mounted, running, s.served ++ [(.openFile e ino, reply)]⟩ where
  accountId := haccount.trans h.accountId
  db := by
    have hkeeps : s.mounted.inodeManager.Keeps mounted.inodeManager := hinodes ▸ fun r hr => hr
    have hstatus := ensureDownloaded_statusOnly env (hcompleted cacheRoot hroot) hrun
    rw [h.accountId] at hstatus
    refine (h.db.mono fun id hopens => hopens.next hkeeps running).trans ?_
    show s.mounted.cache.db.StatusOnly m.accountId _ mounted.cache.db
    rw [hcache]
    refine hstatus.mono fun id hopened => ?_
    subst hopened
    exact ⟨e, ino, reply, List.mem_concat_self, hkeeps _ (mem_of_getFileId hid)⟩
  inodes := h.inodes.trans (hinodes ▸ fun r hr => hr)
  disk := by
    intro place node hnode
    show mounted.cache.files place = some node
    rw [hcache]
    exact (ensureDownloaded_disk hleaves (hcompleted cacheRoot hroot) hrun).1.kept place node
      (h.disk place node hnode)

/-- A request that does not come to the cache. -/
theorem ReadOnly.keep {s : MountSession} (h : s.ReadOnly m) {entry : FsRequest × FsReply} {mounted : MountedFS}
    (hcache : mounted.cache = s.mounted.cache) (hinodes : s.mounted.inodeManager.Keeps mounted.inodeManager)
    (haccount : mounted.accountId = s.mounted.accountId) (running : Bool) :
    ReadOnly m ⟨mounted, running, s.served ++ [entry]⟩ where
  accountId := haccount.trans h.accountId
  db := by
    show m.cache.db.StatusOnly m.accountId _ mounted.cache.db
    rw [hcache]
    exact h.db.mono fun id hopens => hopens.next hinodes running
  inodes := h.inodes.trans hinodes
  disk := by
    intro place node hnode
    show mounted.cache.files place = some node
    rw [hcache]
    exact h.disk place node hnode

theorem ReadOnly.step (hleaves : ∀ fileId, ContentCache.Leaves env fileId) {s : MountSession}
    (h : s.ReadOnly m) (hcompleted : Completed env s.mounted) (r : FsRequest) :
    (s.step env (.request r)).ReadOnly m := by
  unfold MountSession.step
  simp only
  split
  · have hmoves := answer_moves env s.mounted r
    generalize (answer env s.mounted r).1 = reply at *
    generalize (answer env s.mounted r).2 = mounted at *
    cases hmoves with
    | lookup e parent name =>
      refine h.keep ?_ ?_ ?_ _
      · rfl
      · exact CloudSyncFS.lookup_keeps e parent name s.mounted.fs
      · rfl
    | readdir e ino offset room =>
      refine h.keep ?_ ?_ ?_ _
      · rfl
      · exact CloudSyncFS.readdir_keeps e ino offset room s.mounted.fs
      · rfl
    | getattr | refused | read | release =>
      refine h.keep ?_ ?_ ?_ _
      · rfl
      · exact fun r hr => hr
      · rfl
    | failed hid hroot hrun | opened hid hroot hrun =>
      refine h.ensure hleaves hcompleted hroot hid hrun ?_ ?_ ?_ _ <;> rfl
  · exact h

theorem run_readOnly (hleaves : ∀ fileId, ContentCache.Leaves env fileId) {s : MountSession}
    (h : s.ReadOnly m) (hcompleted : Completed env s.mounted) (requests : List FsRequest) :
    (s.run env (requests.map .request)).ReadOnly m := by
  induction requests generalizing s with
  | nil => exact h
  | cons r requests ih => exact ih (h.step hleaves hcompleted r) (step_completed hleaves hcompleted _)

/-- In every session of a new file system over downloads that leave what they report, while no other thread writes: the
database differs only in the status of rows of the account whose number was opened, every stored inode number stays,
and so does everything on the local disk. -/
theorem mount_read_only (env : CacheEnv) (hleaves : ∀ fileId, ContentCache.Leaves env fileId)
    (contentCache : Option UnixPath.Text) (inodeManager : InodeManager) (accountId : AccountId) (db : Database)
    (files : LocalDisk) (requests : List FsRequest) (s : MountSession)
    (hs : s = (start (MountedFS.fresh contentCache inodeManager accountId db files)).run env
      (requests.map .request)) :
    db.StatusOnly accountId s.Opens s.mounted.cache.db ∧ inodeManager.Keeps s.mounted.inodeManager ∧
      ∀ place node, files place = some node → s.mounted.cache.files place = some node := by
  subst hs
  have h : (start (MountedFS.fresh contentCache inodeManager accountId db files)).ReadOnly
      (MountedFS.fresh contentCache inodeManager accountId db files) :=
    ⟨rfl, .refl, fun r hr => hr, fun place node hnode => hnode⟩
  have hrun := run_readOnly hleaves h (start_completed env contentCache inodeManager accountId db files) requests
  exact ⟨hrun.db, hrun.inodes, hrun.disk⟩

/-- A request for the file, and one for the attributes of its directory. -/
def sampleRequests : List FsRequest :=
  [.openFile (FsEnv.calm DateTime.epoch Scan.byRowid) 2, .getattr (FsEnv.calm DateTime.epoch Scan.byRowid) 1]

theorem mount_read_only_sample :
    sampleMount.cache.db.StatusOnly sampleAccount
      ((start sampleMount).run threeBytes (sampleRequests.map .request)).Opens
      ((start sampleMount).run threeBytes (sampleRequests.map .request)).mounted.cache.db :=
  (mount_read_only threeBytes threeBytes_leaves (some (UnixPath.join ['/', 'c'] ['g']))
    (CloudSyncFS.datedFs DateTime.epoch).inodeManager sampleAccount
    (CloudSyncFS.datedFs DateTime.epoch).metadataCache.db (fun _ => none) sampleRequests _ rfl).1

end MountSession

end CloudSync
