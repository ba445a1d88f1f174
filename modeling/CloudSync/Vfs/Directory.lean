/-
A directory through `readdir` and through `lookup`. The two agree when they search the same children, no
two of these share a name, and none was modified before 1970; the children differ only at the root, when
a row has its file id and a path of its own.
-/
import CloudSync.Vfs.Filesystem
import CloudSync.Vfs.MetadataSync

namespace CloudSync

/-! ## Numbers without failures -/

namespace InodeManager

/-- A manager that is running: it has the root, and its counter is above the stored numbers. -/
structure Ready (m : InodeManager) : Prop where
  root : InodeSession.rootRow ∈ m.db.rows
  below : ∀ r ∈ m.db.rows, r.inode.toInt < m.nextInode.toNat

/-- Every running manager is ready while the counter stays below 2^63. -/
theorem ready_of_run {actions : List InodeAction} (hroot : ∀ a ∈ actions, InodeSession.KeepsRoot a)
    (hbelow : ∀ before, before <+: actions → (InodeSession.start.run before).Below) {m : InodeManager}
    (hm : (InodeSession.start.run actions).manager = some m) : m.Ready := by
  have h := InodeSession.run_mapped hroot hbelow
  obtain ⟨hnext, hdb⟩ := InodeSession.manager_eq_some.1 hm
  exact ⟨hdb ▸ h.running (by rw [hnext]; rfl), hdb ▸ (h.below _ hnext).2⟩

/-- Nothing but rows is added, and the counter moves by at most `n`. -/
structure Extends (m : InodeManager) (n : Nat) (m' : InodeManager) : Prop where
  rows : ∀ r ∈ m.db.rows, r ∈ m'.db.rows
  ready : m'.Ready
  next : m'.nextInode.toNat ≤ m.nextInode.toNat + n

theorem Extends.trans {m m' m'' : InodeManager} {n n' : Nat} (h : m.Extends n m') (h' : m'.Extends n' m'') :
    m.Extends (n + n') m'' :=
  ⟨fun r hr => h'.rows r (h.rows r hr), h'.ready, by have := h.next; have := h'.next; omega⟩

/-- A stored file id gets its number and nothing changes. -/
theorem getOrAllocate_stored {m : InodeManager} {fileId : FileId} {inode : UInt64}
    (h : ⟨inode.toInt64, fileId.val⟩ ∈ m.db.rows) : m.getOrAllocate none none fileId = (.ok inode, m) := by
  have hrow : m.db.rowOf fileId.val = some ⟨inode.toInt64, fileId.val⟩ := InodesTable.rowOf_eq_some.2 ⟨h, rfl⟩
  unfold getOrAllocate getOrInsertInode getInodeByFileId
  simp only [hrow, Option.map_some]
  rw [UInt64.toUInt64_toInt64]

/-- With room in the counter an allocation succeeds. -/
theorem Ready.getOrAllocate {m : InodeManager} (h : m.Ready) (hlt : m.nextInode.toNat < 2 ^ 63) (fileId : FileId) :
    ∃ inode m', m.getOrAllocate none none fileId = (.ok inode, m') ∧ m.Extends 1 m' ∧
      ⟨inode.toInt64, fileId.val⟩ ∈ m'.db.rows := by
  cases hrow : m.db.rowOf fileId.val with
  | some r =>
    obtain ⟨hr, hid⟩ := InodesTable.rowOf_eq_some.1 hrow
    have hmem : ⟨r.inode.toUInt64.toInt64, fileId.val⟩ ∈ m.db.rows := by
      rw [Int64.toInt64_toUInt64, ← hid]
      exact hr
    exact ⟨_, m, getOrAllocate_stored hmem, ⟨fun _ => id, h, Nat.le_add_right _ _⟩, hmem⟩
  | none =>
    have hno := InodesTable.rowOf_eq_none.1 hrow
    have hint := toInt_toInt64 hlt
    have hfree : m.nextInode.toInt64 ∉ m.db.rows.map InodeRow.inode := fun hmem => by
      obtain ⟨r, hr, heq⟩ := List.mem_map.1 hmem
      have := h.below r hr
      rw [heq] at this
      omega
    have hsucc := InodeSession.toNat_add_one (n := m.nextInode) (by omega)
    unfold InodeManager.getOrAllocate getOrInsertInode getInodeByFileId
    simp only [hrow, Option.map_none, insertInode, InodesTable.insert]
    rw [dif_neg (fun hor => hor.elim hfree hno)]
    refine ⟨_, _, rfl, ⟨fun r hr => List.mem_append_left _ hr, ⟨List.mem_append_left _ h.root, fun r hr => ?_⟩, ?_⟩,
      List.mem_concat_self⟩
    · show r.inode.toInt < (m.nextInode + 1).toNat
      rcases List.mem_append.1 hr with hr | hr
      · have := h.below r hr
        omega
      · rw [List.mem_singleton.1 hr]
        show m.nextInode.toInt64.toInt < _
        omega
    · exact hsucc.le

/-- Two file ids share a number only if neither is stored. -/
theorem Ready.eq_of_getOrAllocate {m : InodeManager} (h : m.Ready) (hlt : m.nextInode.toNat < 2 ^ 63)
    {fileId g : FileId} {stored inode : UInt64} (hstored : ⟨stored.toInt64, fileId.val⟩ ∈ m.db.rows)
    (hf : (m.getOrAllocate none none fileId).1 = .ok inode) (hg : (m.getOrAllocate none none g).1 = .ok inode) :
    g = fileId := by
  rw [getOrAllocate_stored hstored] at hf
  cases hf
  obtain ⟨inode', m', hok, hext, hmem⟩ := h.getOrAllocate hlt g
  rw [hok] at hg
  cases hg
  have heq := List.inj_on_of_nodup_map m'.db.inodesNodup hmem (hext.rows _ hstored) rfl
  exact congrArg FileId.mk (congrArg InodeRow.fileId heq)

end InodeManager

/-! ## Children -/

namespace MetadataCache

/-- The children of a path when no statement fails. -/
def childrenAt (scan : Scan) (now : DateTime) (path : Str) (c : MetadataCache) : List CachedFile :=
  match c.getChildren scan none now path with
  | .ok children => children
  | .error _ => []

/-- The rows under a path, in the order of the listing. -/
def childRows (scan : Scan) (path : Str) (c : MetadataCache) : List FileRow :=
  (scan.accountRows c.accountId none c.db.files).filter fun r =>
    isChild (childPrefix path) (CloudPath.new r.path).asStr

/-- The file a row is shown as. -/
def ShownAs (r : FileRow) (file : CachedFile) : Prop := ∃ f : File, r = f.toRow ∧ file = dbFileToCachedFile f.stored

theorem mem_childRows {scan : Scan} {path : Str} {c : MetadataCache} {r : FileRow} :
    r ∈ c.childRows scan path ↔ r ∈ c.db.files.rows ∧ r.accountId = c.accountId.val ∧
      isChild (childPrefix path) (CloudPath.new r.path).asStr := by
  unfold childRows
  rw [List.mem_filter, Scan.mem_accountRows, and_assoc]

/-- The children of a path are what the rows under it are shown as, in order. -/
theorem getChildren_rows (scan : Scan) (now : DateTime) (path : Str) (c : MetadataCache) :
    c.getChildren scan none now path = .ok (c.childrenAt scan now path) ∧
      List.Forall₂ ShownAs (c.childRows scan path) (c.childrenAt scan now path) := by
  obtain ⟨files, hfiles, hall⟩ := listFiles_rows scan c.accountId now c.db
  have hok : c.getChildren scan none now path =
      .ok ((files.filter fun f => isChild (childPrefix path) f.path.asStr).map dbFileToCachedFile) := by
    unfold getChildren read
    simp only [hfiles]
    rfl
  have hat : c.childrenAt scan now path =
      (files.filter fun f => isChild (childPrefix path) f.path.asStr).map dbFileToCachedFile := by
    unfold childrenAt
    rw [hok]
  rw [hat]
  refine ⟨hok, List.forall₂_map_right_iff.2 ?_⟩
  -- a row and its record have one path, so both are under the prefix or none is
  have hkept := List.rel_filter (p := fun r : FileRow => isChild (childPrefix path) (CloudPath.new r.path).asStr)
    (q := fun f : File => isChild (childPrefix path) f.path.asStr)
    (fun r f ⟨g, hr, hf⟩ => by rw [hr, hf]; exact Iff.rfl) hall
  exact hkept.imp fun r f ⟨g, hr, hf⟩ => ⟨g, hr, by rw [hf]⟩

/-- Every child is what one of the rows is shown as. -/
theorem childrenAt_row {scan : Scan} {now : DateTime} {path : Str} {c : MetadataCache} {file : CachedFile}
    (h : file ∈ c.childrenAt scan now path) : ∃ r ∈ c.childRows scan path, ShownAs r file := by
  obtain ⟨i, hi, rfl⟩ := List.getElem_of_mem h
  have hrows := (getChildren_rows scan now path c).2
  have hi' : i < (c.childRows scan path).length := hrows.length_eq ▸ hi
  exact ⟨_, List.getElem_mem hi', hrows.get hi' hi⟩

/-- The children have the file ids of the rows. -/
theorem childrenAt_ids (scan : Scan) (now : DateTime) (path : Str) (c : MetadataCache) :
    (c.childrenAt scan now path).map (fun file => file.fileId.val) =
      (c.childRows scan path).map FileRow.providerFileId := by
  refine (List.forall₂_eq_eq_eq ▸ List.forall₂_map_left_iff.2 (List.forall₂_map_right_iff.2 ?_)).symm
  exact (getChildren_rows scan now path c).2.imp fun r file ⟨f, hr, hfile⟩ => by rw [hr, hfile]; rfl

theorem getChildren_spec (scan : Scan) (now : DateTime) (path : Str) (c : MetadataCache) :
    c.getChildren scan none now path = .ok (c.childrenAt scan now path) ∧
      ((c.childrenAt scan now path).map CachedFile.fileId).Nodup ∧
      ∀ file ∈ c.childrenAt scan now path, isChild (childPrefix path) file.path ∧
        ∃ r ∈ c.db.files.rows, r.key = (c.accountId.val, file.fileId.val) ∧
          file.path = (CloudPath.new r.path).asStr := by
  refine ⟨(getChildren_rows scan now path c).1, ?_, fun file hfile => ?_⟩
  · have hrows : ((c.childRows scan path).map FileRow.providerFileId).Nodup :=
      List.Nodup.sublist (List.filter_sublist.map _) (scan.accountRows_nodup c.accountId c.db.files)
    rw [← childrenAt_ids scan now] at hrows
    refine List.Nodup.of_map FileId.val ?_
    rwa [List.map_map]
  · obtain ⟨r, hr, f, rfl, rfl⟩ := childrenAt_row hfile
    obtain ⟨hmem, hacc, hchild⟩ := mem_childRows.1 hr
    exact ⟨hchild, f.toRow, hmem, Prod.ext hacc rfl, rfl⟩

/-- Two files with one id have one path. -/
theorem path_of_fileId {scan : Scan} {now : DateTime} {path path' : Str} {c : MetadataCache} {a b : CachedFile}
    (ha : a ∈ c.childrenAt scan now path) (hb : b ∈ c.childrenAt scan now path') (hid : a.fileId = b.fileId) :
    a.path = b.path := by
  obtain ⟨-, r, hr, hkey, hpath⟩ := (getChildren_spec scan now path c).2.2 a ha
  obtain ⟨-, r', hr', hkey', hpath'⟩ := (getChildren_spec scan now path' c).2.2 b hb
  have heq := List.inj_on_of_nodup_map c.db.files.keysNodup hr hr' (by rw [hkey, hkey', hid])
  rw [hpath, hpath', heq]

/-- A child of the root is no child of a path with another prefix. -/
theorem childPrefix_of_shared {pre path : Str} (hroot : isChild ['/'] path)
    (hchild : isChild (childPrefix pre) path) : childPrefix pre = ['/'] := by
  unfold isChild at hroot hchild
  rw [Bool.and_eq_true, Bool.not_eq_true', List.isPrefixOf_iff_prefix] at hroot hchild
  obtain ⟨⟨rest, rfl⟩, hrest⟩ := hroot
  obtain ⟨hchild, -⟩ := hchild
  unfold childPrefix at hchild ⊢
  split at hchild
  · rw [if_pos ‹_›]
  · rw [if_neg ‹_›]
    cases htrim : trimEndSlashes pre with
    | nil => rfl
    | cons ch q =>
      -- what is left of the path would have the slash of the prefix
      rw [htrim, List.cons_append, List.singleton_append, List.cons_prefix_cons] at hchild
      have hmem : '/' ∈ rest := hchild.2.subset (List.mem_append_right _ List.mem_cons_self)
      rw [List.singleton_append, List.length_singleton, List.drop_one, List.tail_cons] at hrest
      rw [List.contains_iff_mem.2 hmem] at hrest
      cases hrest

end MetadataCache

/-! ## What the handlers answer -/

namespace CloudSyncFS

open MetadataCache

variable (now : DateTime) (scan : Scan)

/-- The children `readdir` lists. -/
def readdirChildren (ino : UInt64) (fs : CloudSyncFS) : List CachedFile :=
  match fs.dirPath (FsEnv.calm now scan) ino with
  | .ok path => fs.metadataCache.childrenAt scan now path
  | _ => []

/-- The children `lookup` searches. -/
def lookupChildren (ino : UInt64) (fs : CloudSyncFS) : List CachedFile :=
  match fs.parentPath (FsEnv.calm now scan) ino with
  | .ok path => fs.metadataCache.childrenAt scan now path
  | _ => []

/-- The whole directory as one call lists it, with no failure and enough room. -/
def listing (ino : UInt64) (fs : CloudSyncFS) : Reply (List DirEntry) × CloudSyncFS :=
  fs.readdir (FsEnv.calm now scan) ino 0 fun _ _ => true

/-- The entries after `.` and `..`. -/
def listed (ino : UInt64) (fs : CloudSyncFS) : List DirEntry :=
  match (fs.listing now scan ino).1 with
  | .ok entries => entries.drop 2
  | _ => []

/-- `lookup` replies with an entry of this number and kind. -/
def Answers (fs : CloudSyncFS) (ino : UInt64) (name : Str) (inode : UInt64) (kind : FileType) : Prop :=
  ∃ attr, (fs.lookup (FsEnv.calm now scan) ino (.utf8 name)).1 = .ok attr ∧ attr.ino = inode ∧ attr.kind = kind

/-- After a listing, `lookup` answers with the listed entries and no others. -/
def Agree (fs : CloudSyncFS) (ino : UInt64) : Prop :=
  ∀ name inode kind, (∃ e ∈ fs.listed now scan ino, e.name = name ∧ e.ino = inode ∧ e.kind = kind) ↔
    (fs.listing now scan ino).2.Answers now scan ino name inode kind

variable {now : DateTime} {scan : Scan}

/-- The entry of a child has its number. -/
def EntryOf (m : InodeManager) (child : CachedFile) (e : UInt64 × FileType × Str) : Prop :=
  e.2 = (kindOf child, child.name) ∧ ⟨e.1.toInt64, child.fileId.val⟩ ∈ m.db.rows

/-- With room for the numbers, every child has an entry, in order. -/
theorem childEntries_forall {children : List CachedFile} {m : InodeManager} (h : m.Ready)
    (hroom : m.nextInode.toNat + children.length < 2 ^ 63) :
    ∃ entries m', childEntries (FsEnv.calm now scan).allocate children m = (entries, m') ∧
      m.Extends children.length m' ∧ List.Forall₂ (EntryOf m') children entries := by
  induction children generalizing m with
  | nil => exact ⟨[], m, rfl, ⟨fun _ => id, h, Nat.le_refl _⟩, .nil⟩
  | cons child children ih =>
    rw [List.length_cons] at hroom
    obtain ⟨inode, m₁, hok, hext, hmem⟩ := h.getOrAllocate (by omega) child.fileId
    have hnext := hext.next
    obtain ⟨entries, m', hentries, hext', hall⟩ := ih hext.ready (by omega)
    have hcons : childEntries (FsEnv.calm now scan).allocate (child :: children) m =
        ((inode, kindOf child, child.name) :: entries, m') := by
      have hstep : m.getOrAllocate ((FsEnv.calm now scan).allocate child.fileId).1
          ((FsEnv.calm now scan).allocate child.fileId).2 child.fileId = (.ok inode, m₁) := hok
      rw [childEntries, hstep]
      simp only [hentries]
    refine ⟨_, m', hcons, ?_, .cons ⟨rfl, hext'.rows _ hmem⟩ hall⟩
    have := hext.trans hext'
    rwa [Nat.add_comm] at this

theorem childEntries_spec {children : List CachedFile} {m : InodeManager} (h : m.Ready)
    (hroom : m.nextInode.toNat + children.length < 2 ^ 63) :
    ∃ m', (childEntries (FsEnv.calm now scan).allocate children m).2 = m' ∧ m.Extends children.length m' ∧
      (∀ child ∈ children, ∃ inode : UInt64, ⟨inode.toInt64, child.fileId.val⟩ ∈ m'.db.rows) ∧
      ∀ inode kind name, (inode, kind, name) ∈ (childEntries (FsEnv.calm now scan).allocate children m).1 ↔
        ∃ child ∈ children, child.name = name ∧ kindOf child = kind ∧
          (m'.getOrAllocate none none child.fileId).1 = .ok inode := by
  obtain ⟨entries, m', hentries, hext, hall⟩ := @childEntries_forall now scan children m h hroom
  rw [hentries]
  have hentry : ∀ child ∈ children, ∃ e ∈ entries, EntryOf m' child e := fun child hc => by
    obtain ⟨i, hi, rfl⟩ := List.getElem_of_mem hc
    have hi' : i < entries.length := hall.length_eq ▸ hi
    exact ⟨_, List.getElem_mem hi', hall.get hi hi'⟩
  refine ⟨m', rfl, hext, fun child hc => ?_, fun inode kind name => ⟨fun he => ?_, ?_⟩⟩
  · obtain ⟨e, -, he⟩ := hentry child hc
    exact ⟨e.1, he.2⟩
  · obtain ⟨i, hi, heq⟩ := List.getElem_of_mem he
    have hi' : i < children.length := hall.length_eq ▸ hi
    obtain ⟨hshown, hmem⟩ := hall.get hi' hi
    rw [List.get_eq_getElem, List.get_eq_getElem, heq] at hshown hmem
    obtain ⟨hkind, hname⟩ := Prod.ext_iff.1 hshown
    exact ⟨_, List.getElem_mem hi', hname.symm, hkind.symm, congrArg Prod.fst (InodeManager.getOrAllocate_stored hmem)⟩
  · rintro ⟨child, hc, rfl, rfl, hok⟩
    obtain ⟨⟨number, shown⟩, he, rfl, hmem⟩ := hentry child hc
    rw [InodeManager.getOrAllocate_stored hmem] at hok
    cases hok
    exact he

/-- With room for all of them, the entries are added in order. -/
theorem addEntries_all (added : List DirEntry) (entries : List ((UInt64 × FileType × Str) × Nat)) :
    addEntries (fun _ _ => true) added entries =
      added ++ entries.map fun e => ⟨e.1.1, Int64.ofNat (e.2 + 1), e.1.2.1, e.1.2.2⟩ := by
  induction entries generalizing added with
  | nil => exact (List.append_nil _).symm
  | cons e entries ih =>
    obtain ⟨⟨ino, kind, name⟩, i⟩ := e
    rw [addEntries, if_pos rfl, ih, List.map_cons, List.append_assoc, List.singleton_append]

/-- A listing allocates a number for every child and lists it. -/
theorem listing_spec (ino : UInt64) {fs : CloudSyncFS} (h : fs.inodeManager.Ready)
    (hroom : fs.inodeManager.nextInode.toNat + (fs.readdirChildren now scan ino).length < 2 ^ 63) :
    ∃ m', (fs.listing now scan ino).2 = { fs with inodeManager := m' } ∧
      fs.inodeManager.Extends (fs.readdirChildren now scan ino).length m' ∧
      (∀ child ∈ fs.readdirChildren now scan ino, ∃ inode : UInt64, ⟨inode.toInt64, child.fileId.val⟩ ∈ m'.db.rows) ∧
      ∀ name inode kind, (∃ e ∈ fs.listed now scan ino, e.name = name ∧ e.ino = inode ∧ e.kind = kind) ↔
        ∃ child ∈ fs.readdirChildren now scan ino, child.name = name ∧ kindOf child = kind ∧
          (m'.getOrAllocate none none child.fileId).1 = .ok inode := by
  unfold listed readdirChildren listing readdir at *
  cases hpath : fs.dirPath (FsEnv.calm now scan) ino with
  | error | panic =>
    exact ⟨fs.inodeManager, rfl, ⟨fun _ => id, h, Nat.le_refl _⟩, fun _ hc => (by cases hc),
      fun _ _ _ => ⟨fun ⟨_, he, _⟩ => (by cases he), fun ⟨_, hc, _⟩ => (by cases hc)⟩⟩
  | ok path =>
    rw [hpath] at hroom
    have hchildren := (getChildren_spec scan now path fs.metadataCache).1
    simp only [FsEnv.calm_scan, FsEnv.calm_list, FsEnv.calm_now, hchildren] at hroom ⊢
    obtain ⟨m', hm', hext, hstored, hentries⟩ := @childEntries_spec now scan _ _ h hroom
    refine ⟨m', by rw [hm'], hext, hstored, fun name inode kind => ?_⟩
    rw [← hentries, addEntries_all, show (0 : Int64).toUInt64.toNat = 0 from rfl, List.drop_zero, List.nil_append,
      ← List.map_drop]
    show (∃ e ∈ List.map _ (List.zipIdx _ 2), _) ↔ _
    generalize (childEntries (FsEnv.calm now scan).allocate _ fs.inodeManager).1 = entries
    constructor
    · rintro ⟨e, he, rfl, rfl, rfl⟩
      obtain ⟨⟨x, i⟩, hx, rfl⟩ := List.mem_map.1 he
      exact List.zipIdx_map_fst 2 entries ▸ List.mem_map_of_mem hx
    · intro hmem
      rw [← List.zipIdx_map_fst 2 entries] at hmem
      obtain ⟨⟨x, i⟩, hx, rfl⟩ := List.mem_map.1 hmem
      exact ⟨_, List.mem_map_of_mem hx, rfl, rfl, rfl⟩

/-- `lookup` answers with the first child of the name, unless its time panics. -/
theorem answers_iff {ino : UInt64} {fs : CloudSyncFS} (h : fs.inodeManager.Ready)
    (hlt : fs.inodeManager.nextInode.toNat < 2 ^ 63) {name : Str} {inode : UInt64} {kind : FileType} :
    fs.Answers now scan ino name inode kind ↔
      ∃ child, (fs.lookupChildren now scan ino).find? (fun child => child.name = name) = some child ∧
        0 ≤ child.modifiedTime.timestamp ∧ kindOf child = kind ∧
        (fs.inodeManager.getOrAllocate none none child.fileId).1 = .ok inode := by
  unfold Answers lookup lookupChildren OsStr.toStr
  simp only
  cases hpath : fs.parentPath (FsEnv.calm now scan) ino with
  | error | panic => exact ⟨fun ⟨_, ha, _⟩ => (by cases ha), fun ⟨_, hc, _⟩ => (by cases hc)⟩
  | ok path =>
    have hchildren := (getChildren_spec scan now path fs.metadataCache).1
    simp only [FsEnv.calm_scan, FsEnv.calm_list, FsEnv.calm_now, hchildren]
    cases hfind : (fs.metadataCache.childrenAt scan now path).find? fun child => child.name = name with
    | none => exact ⟨fun ⟨_, ha, _⟩ => (by cases ha), fun ⟨_, hc, _⟩ => (by cases hc)⟩
    | some child =>
      obtain ⟨inode', m', hok, -, -⟩ := h.getOrAllocate hlt child.fileId
      simp only [FsEnv.calm_allocate, hok]
      unfold cachedFileToAttr systemTime
      by_cases htime : 0 ≤ child.modifiedTime.timestamp
      · rw [if_pos htime]
        constructor
        · rintro ⟨attr, hattr, rfl, rfl⟩
          cases hattr
          exact ⟨child, rfl, htime, rfl, congrArg Prod.fst hok⟩
        · rintro ⟨child', hchild', -, rfl, hinode⟩
          cases hchild'
          rw [hok] at hinode
          cases hinode
          exact ⟨_, rfl, rfl, rfl⟩
      · rw [if_neg htime]
        refine ⟨fun ⟨_, ha, _⟩ => (by cases ha), ?_⟩
        rintro ⟨child', hchild', htime', -⟩
        cases hchild'
        exact absurd htime' htime

/-! ## The two searches -/

/-- A read of a row never fails by itself. -/
theorem get_calm (now : DateTime) (fileId : FileId) (c : MetadataCache) : ∃ file, c.get none now fileId = .ok file := by
  unfold MetadataCache.get MetadataCache.read getFileByProviderId
  simp only
  cases hrow : c.db.rowOf c.accountId fileId with
  | none => exact ⟨none, rfl⟩
  | some r =>
    obtain ⟨f, rfl, -⟩ := Database.rowOf_written hrow
    simp only [File.fromRow_toRow]
    exact ⟨some (dbFileToCachedFile f.stored), rfl⟩

/-- A listing changes nothing in what `lookup` searches. -/
theorem lookupChildren_listing {ino : UInt64} {fs : CloudSyncFS} (h : fs.inodeManager.Ready) {m' : InodeManager}
    {n : Nat} (hlisting : (fs.listing now scan ino).2 = { fs with inodeManager := m' })
    (hext : fs.inodeManager.Extends n m') :
    (fs.listing now scan ino).2.lookupChildren now scan ino = fs.lookupChildren now scan ino := by
  by_cases hstored : ∃ fileId, fs.inodeManager.getFileId none ino = .ok (some fileId)
  · -- the number keeps its file id
    obtain ⟨fileId, hid⟩ := hstored
    have hid' := InodeManager.getFileId_eq_some.2 (hext.rows _ (InodeManager.getFileId_eq_some.1 hid))
    rw [hlisting]
    unfold lookupChildren parentPath
    simp only [FsEnv.calm_inode, hid, hid']
  · -- an unknown number is not that of the root, and nothing was listed
    have hne : ino ≠ fuseRootInode := fun heq => hstored ⟨⟨rootFileId⟩, heq ▸ InodeManager.getFileId_eq_some.2 h.root⟩
    have hdir : fs.dirPath (FsEnv.calm now scan) ino = .error .enoent := by
      unfold dirPath
      rw [if_neg hne]
      split
      · rename_i fileId hid
        exact absurd ⟨fileId, hid⟩ hstored
      · rfl
    unfold listing readdir
    rw [hdir]

/-- Both search the same children, or, at the root only, children with different file ids. -/
theorem same_or_disjoint (ino : UInt64) {fs : CloudSyncFS} (h : fs.inodeManager.Ready) :
    fs.lookupChildren now scan ino = fs.readdirChildren now scan ino ∨
      ∀ a ∈ fs.readdirChildren now scan ino, ∀ b ∈ fs.lookupChildren now scan ino, a.fileId ≠ b.fileId := by
  unfold lookupChildren readdirChildren
  by_cases hino : ino = fuseRootInode
  · subst hino
    have hroot : fs.inodeManager.getFileId none fuseRootInode = .ok (some ⟨rootFileId⟩) :=
      InodeManager.getFileId_eq_some.2 h.root
    obtain ⟨file, hfile⟩ := get_calm now ⟨rootFileId⟩ fs.metadataCache
    have hdir : fs.dirPath (FsEnv.calm now scan) fuseRootInode = .ok ['/'] := if_pos rfl
    unfold parentPath
    simp only [FsEnv.calm_inode, FsEnv.calm_file, FsEnv.calm_now, hroot, hfile, hdir]
    cases file with
    | none => exact .inl rfl
    | some f =>
      by_cases hprefix : childPrefix f.path = ['/']
      · refine .inl ?_
        have hsame : childPrefix f.path = childPrefix ['/'] := hprefix
        simp only [childrenAt, getChildren, hsame]
      · refine .inr fun a ha b hb hid => hprefix ?_
        have hpath := path_of_fileId ha hb hid
        have hchild := ((getChildren_spec scan now _ fs.metadataCache).2.2 b hb).1
        exact childPrefix_of_shared ((getChildren_spec scan now _ fs.metadataCache).2.2 a ha).1 (hpath ▸ hchild)
  · refine .inl ?_
    have hsame : fs.parentPath (FsEnv.calm now scan) ino = fs.dirPath (FsEnv.calm now scan) ino := by
      unfold parentPath dirPath
      simp only [if_neg hino]
    rw [hsame]

/-- Entries made from `A`, and answers with the first child of a name in `B`: they agree when the lists are
one, its names differ and every time is one of `SystemTime`, or when there is nothing on either side. -/
theorem entries_iff_answers {A B : List CachedFile} (num : FileId → UInt64 → Prop) (htotal : ∀ f, ∃ i, num f i)
    (hinj : ∀ a ∈ A, ∀ g i, num a.fileId i → num g i → g = a.fileId) (hids : (A.map CachedFile.fileId).Nodup)
    (hAB : B = A ∨ ∀ a ∈ A, ∀ b ∈ B, a.fileId ≠ b.fileId) :
    (∀ name inode kind, (∃ a ∈ A, a.name = name ∧ kindOf a = kind ∧ num a.fileId inode) ↔
        ∃ b, B.find? (fun b => b.name = name) = some b ∧ 0 ≤ b.modifiedTime.timestamp ∧ kindOf b = kind ∧
          num b.fileId inode) ↔
      (B = A ∧ (A.map CachedFile.name).Nodup ∧ ∀ a ∈ A, 0 ≤ a.modifiedTime.timestamp) ∨
      (A = [] ∧ ∀ b ∈ B, ∀ first, B.find? (fun f => f.name = b.name) = some first →
        first.modifiedTime.timestamp < 0) := by
  constructor
  · intro hagree
    -- the answer to the name of an entry is for its file
    have hfirst : ∀ a ∈ A, ∃ b, B.find? (fun b => b.name = a.name) = some b ∧ 0 ≤ b.modifiedTime.timestamp ∧
        b.fileId = a.fileId := by
      intro a ha
      obtain ⟨i, hi⟩ := htotal a.fileId
      obtain ⟨b, hb, htime, -, hnum⟩ := (hagree a.name i (kindOf a)).1 ⟨a, ha, rfl, rfl, hi⟩
      exact ⟨b, hb, htime, hinj a ha b.fileId i hi hnum⟩
    rcases hAB with rfl | hdisjoint
    · refine .inl ⟨rfl, ?_, fun a ha => ?_⟩
      · refine List.pairwise_map.2 ((List.pairwise_map.1 hids).imp_of_mem fun {a b} ha hb hne hname => hne ?_)
        obtain ⟨f, hf, -, hfa⟩ := hfirst a ha
        obtain ⟨g, hg, -, hgb⟩ := hfirst b hb
        rw [← hname, hf] at hg
        cases hg
        exact hfa.symm.trans hgb
      · obtain ⟨f, hf, htime, hfa⟩ := hfirst a ha
        rwa [List.inj_on_of_nodup_map hids (List.mem_of_find?_eq_some hf) ha hfa] at htime
    · have hnil : A = [] := by
        refine List.eq_nil_iff_forall_not_mem.2 fun a ha => ?_
        obtain ⟨f, hf, -, hfa⟩ := hfirst a ha
        exact hdisjoint a ha f (List.mem_of_find?_eq_some hf) hfa.symm
      refine .inr ⟨hnil, fun b hb first hfind => ?_⟩
      by_contra htime
      obtain ⟨i, hi⟩ := htotal first.fileId
      obtain ⟨a, ha, -⟩ := (hagree b.name i (kindOf first)).2 ⟨first, hfind, Int.not_lt.1 htime, rfl, hi⟩
      rw [hnil] at ha
      cases ha
  · rintro (⟨rfl, hnames, htimes⟩ | ⟨rfl, hnone⟩) name inode kind
    · constructor
      · rintro ⟨a, ha, rfl, rfl, hnum⟩
        exact ⟨a, (UniqueKey.find_eq_some hnames).2 ⟨ha, rfl⟩, htimes a ha, rfl, hnum⟩
      · rintro ⟨b, hb, -, rfl, hnum⟩
        obtain ⟨hmem, hname⟩ := (UniqueKey.find_eq_some hnames).1 hb
        exact ⟨b, hmem, hname, rfl, hnum⟩
    · refine ⟨fun ⟨_, ha, _⟩ => (by cases ha), ?_⟩
      rintro ⟨b, hb, htime, -⟩
      have hname : b.name = name := by simpa using List.find?_some hb
      exact absurd htime (Int.not_le.2 (hnone b (List.mem_of_find?_eq_some hb) b (hname ▸ hb)))

/-- `readdir` and `lookup` describe the same directory exactly when they search the same children, these have
different names, and none was modified before 1970, or when there is nothing to list and nothing to answer. -/
theorem readdir_lookup_iff (fs : CloudSyncFS) (ino : UInt64) (h : fs.inodeManager.Ready)
    (hroom : fs.inodeManager.nextInode.toNat + (fs.readdirChildren now scan ino).length < 2 ^ 63) :
    fs.Agree now scan ino ↔
      (fs.lookupChildren now scan ino = fs.readdirChildren now scan ino ∧
        ((fs.readdirChildren now scan ino).map CachedFile.name).Nodup ∧
        ∀ child ∈ fs.readdirChildren now scan ino, 0 ≤ child.modifiedTime.timestamp) ∨
      (fs.readdirChildren now scan ino = [] ∧ ∀ child ∈ fs.lookupChildren now scan ino, ∀ first,
        (fs.lookupChildren now scan ino).find? (fun f => f.name = child.name) = some first →
          first.modifiedTime.timestamp < 0) := by
  obtain ⟨m', hlisting, hext, hstored, hentries⟩ := listing_spec ino h hroom
  have hnext := hext.next
  have hlt : m'.nextInode.toNat < 2 ^ 63 := by omega
  have hready : (fs.listing now scan ino).2.inodeManager.Ready := hlisting ▸ hext.ready
  have hids : ((fs.readdirChildren now scan ino).map CachedFile.fileId).Nodup := by
    unfold readdirChildren
    split
    · exact (getChildren_spec scan now _ fs.metadataCache).2.1
    · exact List.nodup_nil
  rw [← entries_iff_answers (fun f i => (m'.getOrAllocate none none f).1 = .ok i) (fun f => ?_)
    (fun a ha g i hi hg => ?_) hids (same_or_disjoint ino h)]
  · refine forall_congr' fun name => forall_congr' fun inode => forall_congr' fun kind => ?_
    rw [hentries, answers_iff hready (by rw [hlisting]; exact hlt), lookupChildren_listing h hlisting hext, hlisting]
  · obtain ⟨i, _, hok, -⟩ := hext.ready.getOrAllocate hlt f
    exact ⟨i, congrArg Prod.fst hok⟩
  · obtain ⟨stored, hmem⟩ := hstored a ha
    exact hext.ready.eq_of_getOrAllocate hlt hmem hi hg

/-- Two files of the root, stored one after the other, after the first start of the process. -/
def twoFiles (name name' : Str) : CloudSyncFS :=
  let account : AccountId := ⟨['a']⟩
  let item (id name : Str) : CloudItem :=
    ⟨⟨id⟩, name, CloudPath.new ('/' :: name), false, some 1, none, DateTime.epoch, none, none⟩
  let first := (upsertSection account (item ['f'] name) DateTime.epoch (Database.empty [account])).2
  ⟨⟨(InodeSession.start.run [.restart none none none]).db, 2⟩,
    ⟨(upsertSection account (item ['g'] name') DateTime.epoch first).2, account⟩⟩

theorem twoFiles_ready (name name' : Str) : (twoFiles name name').inodeManager.Ready := by
  have hbelow : ∀ before ∈ [InodeAction.restart none none none].inits, (InodeSession.start.run before).Below := by
    decide +kernel
  have hroot : ∀ a ∈ [InodeAction.restart none none none], InodeSession.KeepsRoot a := by decide
  exact InodeManager.ready_of_run hroot (fun before hbefore => hbelow before ((List.mem_inits _ _).2 hbefore)) rfl

/-- Two files with different names. -/
theorem readdir_lookup_sample : (twoFiles ['m'] ['n']).Agree DateTime.epoch Scan.byRowid 1 :=
  (readdir_lookup_iff (twoFiles ['m'] ['n']) 1 (twoFiles_ready _ _) (by decide +kernel)).2
    (.inl (by decide +kernel))

/-- Two files with one name are both listed, and `lookup` answers for the first only. -/
theorem twin_not_answered : ¬ (twoFiles ['n'] ['n']).Agree DateTime.epoch Scan.byRowid 1 := by
  intro hagree
  have hlisted : ∃ e ∈ (twoFiles ['n'] ['n']).listed DateTime.epoch Scan.byRowid 1,
      e.name = ['n'] ∧ e.ino = 3 ∧ e.kind = .regularFile := by decide +kernel
  obtain ⟨attr, hattr, hino, -⟩ := (hagree ['n'] 3 .regularFile).1 hlisted
  have hanswer : ∀ reply, (((twoFiles ['n'] ['n']).listing DateTime.epoch Scan.byRowid 1).2.lookup
      (FsEnv.calm DateTime.epoch Scan.byRowid) 1 (.utf8 ['n'])).1 = .ok reply → reply.ino = 2 := by
    rintro reply h
    cases h
    rfl
  rw [hanswer attr hattr] at hino
  exact absurd hino (by decide)

end CloudSyncFS

end CloudSync
