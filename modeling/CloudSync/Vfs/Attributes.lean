/-
The attributes of a stored item through `getattr` and `lookup`. The time goes from a signed number of seconds through
an unsigned one to a `SystemTime`: from 1970 on it is that of the item, before 1970 the cast leaves the range of
`SystemTime` and the handler panics.
-/
import CloudSync.Vfs.Baseline
import CloudSync.Vfs.Directory

namespace CloudSync

/-! ## `getattr` -/

namespace CloudSyncFS

/-- The attributes of the root directory: its times are now. -/
def getRootAttr (now : DateTime) : FileAttr where
  ino := fuseRootInode
  size := 0
  blocks := 0
  atime := now.timestamp.toNat
  mtime := now.timestamp.toNat
  ctime := now.timestamp.toNat
  crtime := now.timestamp.toNat
  kind := .directory
  perm := 0o755
  nlink := 2
  uid := 1000
  gid := 1000
  rdev := 0
  blksize := 4096
  flags := 0

/-- The reply with the attributes of a file. -/
def replyAttr (file : CachedFile) (inode : UInt64) : Reply FileAttr :=
  match cachedFileToAttr file inode with
  | some attr => .ok attr
  | none => .panic

def getattr (env : FsEnv) (ino : UInt64) (fs : CloudSyncFS) : Reply FileAttr :=
  if ino = fuseRootInode then .ok (getRootAttr env.now)
  else match fs.inodeManager.getFileId env.inode ino with
    | .ok (some fileId) => match fs.metadataCache.get env.file env.now fileId with
      | .ok (some file) => replyAttr file ino
      | .error .panic => .panic
      | _ => .error .enoent
    | _ => .error .enoent

/-! ## The casts -/

/-- `secs as u64` -/
def durationSecs (secs : Int) : UInt64 := (Int64.ofInt secs).toUInt64

/-- `UNIX_EPOCH + Duration::from_secs(secs)`, which panics when the seconds are none of an `i64`. -/
def epochPlus (secs : UInt64) : Option Nat := if secs.toNat < 2 ^ 63 then some secs.toNat else none

/-- For the times of chrono `systemTime` is the cast and the addition. -/
theorem systemTime_cast (t : DateTime) : systemTime t.timestamp = epochPlus (durationSecs t.timestamp) := by
  have hlo : minTimestamp ≤ t.timestamp := t.lo
  have hhi : t.timestamp ≤ maxTimestamp := t.hi
  unfold minTimestamp at hlo
  unfold maxTimestamp at hhi
  have hnat : (durationSecs t.timestamp).toNat = (t.timestamp % 2 ^ 64).toNat := by
    show (Int64.ofInt t.timestamp).toBitVec.toNat = _
    rw [Int64.toBitVec_ofInt, BitVec.toNat_ofInt]
    rfl
  unfold systemTime epochPlus
  rw [hnat]
  by_cases h : 0 ≤ t.timestamp
  · rw [if_pos h, if_pos (by omega), Int.emod_eq_of_lt h (by omega)]
  · rw [if_neg h, if_neg (by omega)]

/-- The number of blocks is the least that holds the size. -/
theorem blocks_least (size : UInt64) :
    size.toNat ≤ 512 * (size / 512 + if size % 512 = 0 then 0 else 1).toNat ∧
      ∀ n, size.toNat ≤ 512 * n → (size / 512 + if size % 512 = 0 then 0 else 1).toNat ≤ n := by
  have hlt := size.toNat_lt
  have hmod : (size % 512).toNat = size.toNat % 512 := rfl
  have hdiv : (size / 512).toNat = size.toNat / 512 := rfl
  by_cases hrest : size % 512 = 0
  · have hzero : size.toNat % 512 = 0 := by rw [← hmod, hrest]; rfl
    rw [if_pos hrest, UInt64.add_zero, hdiv]
    exact ⟨by omega, fun n hn => by omega⟩
  · have hpos : size.toNat % 512 ≠ 0 := fun h => hrest (UInt64.toNat_inj.1 (hmod.trans h))
    rw [if_neg hrest, UInt64.toNat_add, hdiv]
    show _ ≤ 512 * ((size.toNat / 512 + 1) % 2 ^ 64) ∧ ∀ n, _ → (size.toNat / 512 + 1) % 2 ^ 64 ≤ n
    exact ⟨by omega, fun n hn => by omega⟩

/-! ## The row of a stored item -/

/-- The attributes show the item: its time in whole seconds, its size, and the blocks for it. -/
structure Shows (item : CloudItem) (attr : FileAttr) : Prop where
  mtime : (attr.mtime : Int) = item.modified.timestamp
  size : attr.size = item.size.getD 0
  holds : attr.size.toNat ≤ 512 * attr.blocks.toNat
  least : ∀ n, attr.size.toNat ≤ 512 * n → attr.blocks.toNat ≤ n

/-- A record with the size and the time of the item. -/
def Keeps (item : CloudItem) (f : File) : Prop :=
  f.size = item.size ∧ f.modifiedAt.timestamp = item.modified.timestamp

section

variable {db db' : Database} {account : AccountId} {item : CloudItem} {stamp : DateTime}

/-- What is read back of an item that was stored. -/
theorem stored_record (hstored : upsertSection account item stamp db = (.ok (), db')) :
    ∃ f : File, db'.rowOf account item.id = some f.toRow ∧ Keeps item f.stored := by
  have hacc : account ∈ db.accounts := by
    by_contra hacc
    obtain ⟨e, he⟩ := upsertSection_refused item stamp hacc
    rw [hstored] at he
    cases he
  obtain ⟨db₁, hdb₁, -, hreplayed⟩ := upsertSection_spec item stamp hacc
  rw [hstored] at hdb₁
  cases hdb₁
  -- the metadata of the row are those of the item
  have hmetadata : db'.metadataOf account item.id = some item.metadata := by
    rw [hreplayed.metadata, KeyedLog.Cell.replay_cons, KeyedLog.Cell.replay_nil, CloudItem.entry,
      KeyedLog.plain_apply_set, Function.update_self]
  obtain ⟨r, hr, hmeta⟩ := Option.map_eq_some_iff.1 hmetadata
  obtain ⟨f, rfl, -⟩ := Database.rowOf_written hr
  have hrow : f.toRow.metadata = f.metadata := congrArg RowState.metadata f.rowState_toRow
  rw [hrow] at hmeta
  exact ⟨f, hr, congrArg Metadata.size hmeta, congrArg Metadata.modifiedAt hmeta⟩

/-- A child of a directory is what its row decodes to. -/
theorem child_record {scan : Scan} {now : DateTime} {path : Str} {c : MetadataCache} {child : CachedFile}
    (h : child ∈ c.childrenAt scan now path) {f : File} (hf : c.db.rowOf c.accountId child.fileId = some f.toRow) :
    child = dbFileToCachedFile f.stored := by
  obtain ⟨r, hr, g, rfl, rfl⟩ := MetadataCache.childrenAt_row h
  obtain ⟨hmem, hacc, -⟩ := MetadataCache.mem_childRows.1 hr
  -- the row of the child is the one that its file id names
  have hkey : c.db.rowOf c.accountId g.providerFileId = some g.toRow :=
    FilesTable.rowAt_eq_some.2 ⟨hmem, Prod.ext hacc rfl⟩
  have hsame : g.toRow = f.toRow := Option.some.inj (hkey.symm.trans hf)
  have hread := congrArg File.fromRow hsame
  rw [File.fromRow_toRow, File.fromRow_toRow] at hread
  exact congrArg dbFileToCachedFile (Except.ok.inj hread)

end

/-! ## The two handlers -/

/-- From 1970 on the attributes show the item; before 1970 there is a panic. -/
theorem replyAttr_keeps {item : CloudItem} {f : File} (hf : Keeps item f) (ino : UInt64) :
    (0 ≤ item.modified.timestamp → ∃ attr, replyAttr (dbFileToCachedFile f) ino = .ok attr ∧ Shows item attr) ∧
      (item.modified.timestamp < 0 → replyAttr (dbFileToCachedFile f) ino = .panic) := by
  have htime : (dbFileToCachedFile f).modifiedTime.timestamp = item.modified.timestamp := hf.2
  unfold replyAttr cachedFileToAttr systemTime
  rw [htime]
  constructor
  · intro h
    rw [if_pos h]
    refine ⟨_, rfl, Int.toNat_of_nonneg h, congrArg (Option.getD · 0) hf.1, ?_, ?_⟩
    · exact (blocks_least _).1
    · exact (blocks_least _).2
  · intro h
    rw [if_neg (Int.not_le.2 h)]
    rfl

theorem replyAttr_iff {item : CloudItem} {f : File} (hf : Keeps item f) (ino : UInt64) :
    (∃ attr, replyAttr (dbFileToCachedFile f) ino = .ok attr ∧ Shows item attr) ↔ 0 ≤ item.modified.timestamp := by
  constructor
  · rintro ⟨attr, hattr, -⟩
    by_contra h
    rw [(replyAttr_keeps hf ino).2 (Int.not_le.1 h)] at hattr
    cases hattr
  · exact (replyAttr_keeps hf ino).1

/-- `lookup` replies with the attributes of the first child of the name. -/
theorem lookup_found {now : DateTime} {scan : Scan} {fs : CloudSyncFS} {parent ino : UInt64} {name : Str}
    {child : CachedFile}
    (hfind : (fs.lookupChildren now scan parent).find? (fun child => child.name = name) = some child)
    (hino : fs.inodeManager.getFileId none ino = .ok (some child.fileId)) :
    (fs.lookup (FsEnv.calm now scan) parent (.utf8 name)).1 = replyAttr child ino := by
  unfold lookupChildren at hfind
  unfold lookup OsStr.toStr
  simp only
  cases hpath : fs.parentPath (FsEnv.calm now scan) parent with
  | error | panic =>
    rw [hpath] at hfind
    cases hfind
  | ok path =>
    rw [hpath] at hfind
    have hchildren := (MetadataCache.getChildren_spec scan now path fs.metadataCache).1
    have hallocate := InodeManager.getOrAllocate_stored (InodeManager.getFileId_eq_some.1 hino)
    simp only [FsEnv.calm_scan, FsEnv.calm_list, FsEnv.calm_now, hchildren, hfind, FsEnv.calm_allocate, hallocate]
    unfold replyAttr
    cases cachedFileToAttr child ino <;> rfl

theorem getattr_found {now : DateTime} {scan : Scan} {fs : CloudSyncFS} {ino : UInt64} {fileId : FileId} {f : File}
    (hroot : ino ≠ fuseRootInode) (hino : fs.inodeManager.getFileId none ino = .ok (some fileId))
    (hf : fs.metadataCache.db.rowOf fs.metadataCache.accountId fileId = some f.toRow) :
    fs.getattr (FsEnv.calm now scan) ino = replyAttr (dbFileToCachedFile f.stored) ino := by
  have hget : fs.metadataCache.get none now fileId = .ok (some (dbFileToCachedFile f.stored)) := by
    unfold MetadataCache.get MetadataCache.read
    simp only [getFileByProviderId_some now hf]
    rfl
  unfold getattr
  rw [if_neg hroot]
  simp only [FsEnv.calm_inode, FsEnv.calm_file, FsEnv.calm_now, hino, hget]

/-- The root shows no item at all times. -/
theorem root_not_shown (item : CloudItem) : ∃ now, ¬ Shows item (getRootAttr now) := by
  by_cases h : item.modified.timestamp = 0
  · refine ⟨⟨1, 0, by decide, by decide, by decide⟩, fun hshows => ?_⟩
    have htime : (1 : Int) = item.modified.timestamp := hshows.mtime
    omega
  · refine ⟨DateTime.epoch, fun hshows => ?_⟩
    have htime : (0 : Int) = item.modified.timestamp := hshows.mtime
    exact h htime.symm

/-- For every item that metadata sync has stored, under a number that the inode map has for it: `getattr` shows the
item at all times exactly when it was not modified before 1970 and the number is not that of the root; `lookup` of a
name whose first child is the item shows it exactly when it was not modified before 1970. -/
theorem attributes_iff (db db' : Database) (account : AccountId) (item : CloudItem) (stamp : DateTime)
    (hstored : upsertSection account item stamp db = (.ok (), db')) (scan : Scan) (m : InodeManager) (ino : UInt64)
    (hino : m.getFileId none ino = .ok (some item.id)) :
    ((∀ now, ∃ attr, getattr (FsEnv.calm now scan) ino ⟨m, ⟨db', account⟩⟩ = .ok attr ∧ Shows item attr) ↔
      0 ≤ item.modified.timestamp ∧ ino ≠ fuseRootInode) ∧
    (∀ now parent name child,
      (lookupChildren now scan parent ⟨m, ⟨db', account⟩⟩).find? (fun child => child.name = name) = some child →
      child.fileId = item.id →
      ((∃ attr, (lookup (FsEnv.calm now scan) parent (.utf8 name) ⟨m, ⟨db', account⟩⟩).1 = .ok attr ∧
        Shows item attr) ↔ 0 ≤ item.modified.timestamp)) := by
  obtain ⟨f, hf, hkeeps⟩ := stored_record hstored
  constructor
  · by_cases hroot : ino = fuseRootInode
    · refine iff_of_false (fun hshows => ?_) fun h => h.2 hroot
      obtain ⟨now, hnot⟩ := root_not_shown item
      obtain ⟨attr, hattr, hshown⟩ := hshows now
      unfold getattr at hattr
      rw [if_pos hroot] at hattr
      cases hattr
      exact hnot hshown
    · rw [and_iff_left hroot, ← replyAttr_iff hkeeps ino]
      refine ⟨fun hshows => ?_, fun hshows now => ?_⟩
      · obtain ⟨attr, hattr, hshown⟩ := hshows DateTime.epoch
        rw [getattr_found hroot hino hf] at hattr
        exact ⟨attr, hattr, hshown⟩
      · rw [getattr_found hroot hino hf]
        exact hshows
  · intro now parent name child hfind hid
    have hchild : child = dbFileToCachedFile f.stored := by
      have hmem := List.mem_of_find?_eq_some hfind
      unfold lookupChildren at hmem
      split at hmem
      · exact child_record hmem (hid ▸ hf)
      · cases hmem
    rw [lookup_found hfind (hid ▸ hino), hchild]
    exact replyAttr_iff hkeeps ino

/-! ## Samples -/

/-- A file of the root that was modified at this time. -/
def datedItem (modified : DateTime) : CloudItem := { sampleItem ['f'] ['n'] with modified := modified }

/-- The file is stored, and has the number 2. -/
def datedFs (modified : DateTime) : CloudSyncFS where
  inodeManager := (InodeManager.getOrAllocate none none ⟨['f']⟩
    ⟨(InodeSession.start.run [.restart none none none]).db, 2⟩).2
  metadataCache :=
    ⟨(upsertSection sampleAccount (datedItem modified) DateTime.epoch (Database.empty [sampleAccount])).2,
      sampleAccount⟩

theorem attributes_sample : ∃ attr,
    getattr (FsEnv.calm DateTime.epoch Scan.byRowid) 2 (datedFs DateTime.epoch) = .ok attr ∧
      Shows (datedItem DateTime.epoch) attr :=
  (attributes_iff (Database.empty [sampleAccount]) (datedFs DateTime.epoch).metadataCache.db sampleAccount
    (datedItem DateTime.epoch) DateTime.epoch rfl Scan.byRowid (datedFs DateTime.epoch).inodeManager 2 rfl).1.2
    ⟨Int.le_refl 0, by decide⟩ DateTime.epoch

/-- A second before 1970. -/
def beforeEpoch : DateTime := ⟨-1, 0, by decide, by decide, DateTime.epoch.nanosLt⟩

/-- Both handlers panic for a file that was modified then. -/
theorem before_epoch_panics :
    getattr (FsEnv.calm DateTime.epoch Scan.byRowid) 2 (datedFs beforeEpoch) = .panic ∧
      (lookup (FsEnv.calm DateTime.epoch Scan.byRowid) 1 (.utf8 ['n']) (datedFs beforeEpoch)).1 = .panic := by
  decide +kernel

end CloudSyncFS

end CloudSync
