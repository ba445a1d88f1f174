/-
A path through the mount. The kernel looks up one name after the other, each in the directory the last reply was for.
On a table whose rows have their names at the end of their paths, it reaches a row exactly when this is the first one
at the path of the names and every path before it is that of a folder; so a file is reached by one path only.
-/
import CloudSync.Lib.NameTree
import CloudSync.Lib.Segments
import CloudSync.Vfs.Baseline
import CloudSync.Vfs.ParentChildren
import CloudSync.Vfs.Attributes

namespace CloudSync

open NameTree (Tree Follows)
open LastSeparator (last_inj bare_name Bare segments)
open Prog (exec)

/-- The names the kernel looks up. -/
def IsName (name : Str) : Prop := name ≠ [] ∧ '/' ∉ name

instance instDecidablePredIsName : DecidablePred IsName := fun name =>
  inferInstanceAs (Decidable (name ≠ [] ∧ '/' ∉ name))

/-- The path of some names below the root. -/
def pathText (names : List Str) : Str := names.flatMap fun name => '/' :: name

theorem pathText_concat (names : List Str) (name : Str) :
    pathText (names ++ [name]) = pathText names ++ '/' :: name := by
  unfold pathText
  rw [List.flatMap_append, List.flatMap_singleton]

theorem segments_pathText {names : List Str} (h : ∀ name ∈ names, IsName name) :
    segments '/' (pathText names) = names := by
  induction names using List.reverseRecOn with
  | nil => exact LastSeparator.segments_nil
  | append_singleton names name ih =>
    obtain ⟨hne, hno⟩ := h name (List.mem_append_right _ (List.mem_singleton_self name))
    rw [pathText_concat, LastSeparator.segments_append_cons, ih fun n hn => h n (List.mem_append_left _ hn),
      LastSeparator.segments_name hne hno]

theorem pathText_bare {names : List Str} (h : ∀ name ∈ names, IsName name) : Bare '/' (pathText names) := by
  induction names using List.reverseRecOn with
  | nil => exact LastSeparator.bare_nil
  | append_singleton names name ih =>
    obtain ⟨hne, hno⟩ := h name (List.mem_append_right _ (List.mem_singleton_self name))
    rw [pathText_concat]
    exact bare_name hne hno _

theorem pathText_ne_slash {names : List Str} (h : ∀ name ∈ names, IsName name) : pathText names ≠ ['/'] :=
  fun heq => pathText_bare h [] heq

/-! ## The tree of a table -/

namespace MetadataCache

/-- The first row at the path of the names, in the order of a listing. -/
def rowAt (scan : Scan) (c : MetadataCache) (names : List Str) : Option FileRow :=
  (scan.accountRows c.accountId none c.db.files).find? fun r => (CloudPath.new r.path).asStr = pathText names

/-- The rows of an account as a tree. -/
def tree (scan : Scan) (c : MetadataCache) : Tree Str FileRow where
  entry := c.rowAt scan
  dir r := r.isFolder ≠ 0

/-- A table that can be walked: every row has its name at the end of its path and a time that can be shown, and no row
has the file id of the root. -/
structure Walkable (c : MetadataCache) : Prop where
  named : ∀ r, c.Owns r → '/' ∉ r.name ∧ ∃ pre, (CloudPath.new r.path).asStr = pre ++ '/' :: r.name
  dated : ∀ r, c.Owns r → 0 ≤ r.modifiedAt
  rootless : c.db.rowOf c.accountId ⟨rootFileId⟩ = none

theorem rowAt_eq_some {scan : Scan} {c : MetadataCache} {names : List Str} {r : FileRow}
    (h : c.rowAt scan names = some r) : c.Owns r ∧ (CloudPath.new r.path).asStr = pathText names := by
  unfold rowAt at h
  have hpath := List.find?_some h
  exact ⟨Scan.mem_accountRows.1 (List.mem_of_find?_eq_some h), of_decide_eq_true hpath⟩

/-- The path a directory is searched at. -/
def dirText (names : List Str) : Str := if names = [] then ['/'] else pathText names

theorem childPrefix_dirText {names : List Str} (h : ∀ name ∈ names, IsName name) :
    childPrefix (dirText names) = pathText names ++ ['/'] := by
  unfold dirText childPrefix
  by_cases hnil : names = []
  · subst hnil
    rfl
  · rw [if_neg hnil, if_neg (pathText_ne_slash h)]
    exact congrArg (· ++ ['/']) (pathText_bare h).trimEnd_eq

/-- A child of a directory that has the name is a row at the path of the name. -/
theorem Walkable.child_iff {c : MetadataCache} (h : c.Walkable) {base : List Str} (hbase : ∀ name ∈ base, IsName name)
    {name : Str} (hname : '/' ∉ name) {r : FileRow} (hr : c.Owns r) :
    (isChild (childPrefix (dirText base)) (CloudPath.new r.path).asStr = true ∧ r.name = name) ↔
      (CloudPath.new r.path).asStr = pathText (base ++ [name]) := by
  obtain ⟨hno, pre, hpath⟩ := h.named r hr
  rw [childPrefix_dirText hbase, hpath, isChild_iff hno, pathText_concat, last_inj hno hname]
  exact and_congr_left' eq_comm

theorem find?_congr {α : Type} {p q : α → Bool} {l : List α} (h : ∀ a ∈ l, p a = q a) : l.find? p = l.find? q := by
  induction l with
  | nil => rfl
  | cons a l ih =>
    rw [List.find?_cons, List.find?_cons, h a List.mem_cons_self, ih fun b hb => h b (List.mem_cons_of_mem _ hb)]

/-- Two lists whose elements correspond are searched alike. -/
theorem rel_find? {α β : Type} {R : α → β → Prop} {p : α → Bool} {q : β → Bool} (hpq : ∀ a b, R a b → p a = q b)
    {l : List α} {l' : List β} (h : List.Forall₂ R l l') : Option.Rel R (l.find? p) (l'.find? q) := by
  induction h with
  | nil => exact .none
  | cons hab _ ih =>
    rw [List.find?_cons, List.find?_cons, hpq _ _ hab]
    split
    · exact .some hab
    · exact ih

/-- The first child of the name is the first row at its path. -/
theorem Walkable.find_child {c : MetadataCache} (h : c.Walkable) (scan : Scan) (now : DateTime) {base : List Str}
    (hbase : ∀ name ∈ base, IsName name) {name : Str} (hname : '/' ∉ name) :
    Option.Rel ShownAs (c.rowAt scan (base ++ [name]))
      ((c.childrenAt scan now (dirText base)).find? fun child => child.name = name) := by
  have hrows : c.rowAt scan (base ++ [name]) =
      (c.childRows scan (dirText base)).find? fun r => r.name = name := by
    unfold rowAt childRows
    rw [List.find?_filter]
    refine find?_congr fun r hr => ?_
    rw [Bool.eq_iff_iff]
    simp only [decide_eq_true_eq]
    exact (h.child_iff hbase hname (Scan.mem_accountRows.1 hr)).symm
  rw [hrows]
  refine rel_find? (fun r file hshown => ?_) (getChildren_rows scan now (dirText base) c).2
  obtain ⟨f, rfl, rfl⟩ := hshown
  rfl

end MetadataCache

/-! ## Lookups -/

namespace CloudSyncFS

open MetadataCache

section

variable (now : DateTime) (scan : Scan)

/-- The entry that `lookup` replies. -/
def lookupName (ino : UInt64) (name : Str) (fs : CloudSyncFS) : Option FileAttr × CloudSyncFS :=
  match fs.lookup (FsEnv.calm now scan) ino (.utf8 name) with
  | (.ok attr, fs) => (some attr, fs)
  | (_, fs) => (none, fs)

/-- The kernel's walk from the root. -/
def walk (names : List Str) (fs : CloudSyncFS) : Option FileAttr × CloudSyncFS :=
  NameTree.walk (lookupName now scan) FileAttr.ino (fun attr => attr.kind = .directory) fuseRootInode names fs

/-- `n` more allocations succeed. -/
def HasRoom (c : MetadataCache) (n : Nat) (fs : CloudSyncFS) : Prop :=
  fs.metadataCache = c ∧ fs.inodeManager.Ready ∧ fs.inodeManager.nextInode.toNat + n ≤ 2 ^ 63

/-- The number is that of the directory at the names. -/
def StandsFor (c : MetadataCache) (ino : UInt64) (base : List Str) (fs : CloudSyncFS) : Prop :=
  (∀ name ∈ base, IsName name) ∧ ((base = [] ∧ ino = fuseRootInode) ∨ (base ≠ [] ∧ ∃ r, c.rowAt scan base = some r ∧
    fs.inodeManager.getFileId none ino = .ok (some ⟨r.providerFileId⟩)))

/-- The attributes are those of the row, and their number is its. -/
def ShowsRow (c : MetadataCache) (attr : FileAttr) (r : FileRow) (fs : CloudSyncFS) : Prop :=
  c.Owns r ∧ fs.inodeManager.getFileId none attr.ino = .ok (some ⟨r.providerFileId⟩) ∧
    ∃ file, ShownAs r file ∧ cachedFileToAttr file attr.ino = some attr

end

variable {scan : Scan} {c : MetadataCache}

theorem get_of_owns (now : DateTime) {r : FileRow} (hr : c.Owns r) : ∃ file, ShownAs r file ∧
    c.get none now ⟨r.providerFileId⟩ = .ok (some file) := by
  obtain ⟨f, rfl⟩ := c.db.files.written r hr.1
  refine ⟨_, ⟨f, rfl, rfl⟩, ?_⟩
  have hrow : c.db.rowOf c.accountId ⟨f.toRow.providerFileId⟩ = some f.toRow := by
    unfold Database.rowOf
    rw [← hr.2]
    exact FilesTable.mem_iff_rowAt.1 hr.1
  unfold MetadataCache.get MetadataCache.read
  simp only [getFileByProviderId_some now hrow]
  rfl

/-- At a number that stands for a directory, `lookup` searches the path of the directory. -/
theorem parentPath_standsFor (now : DateTime) (hwalkable : c.Walkable) {n : Nat} {fs : CloudSyncFS}
    (hgood : HasRoom c n fs) {ino : UInt64} {base : List Str} (h : StandsFor scan c ino base fs) :
    fs.parentPath (FsEnv.calm now scan) ino = .ok (dirText base) := by
  obtain ⟨rfl, hready, -⟩ := hgood
  unfold parentPath
  rcases h.2 with ⟨rfl, rfl⟩ | ⟨hne, r, hrow, hino⟩
  · -- the root has its number, and no row
    have hroot : fs.inodeManager.getFileId none fuseRootInode = .ok (some ⟨rootFileId⟩) :=
      InodeManager.getFileId_eq_some.2 hready.root
    have hget : fs.metadataCache.get none now ⟨rootFileId⟩ = .ok none := by
      unfold MetadataCache.get MetadataCache.read getFileByProviderId
      simp only [hwalkable.rootless]
      rfl
    simp only [FsEnv.calm_inode, FsEnv.calm_file, FsEnv.calm_now, hroot, hget, if_true]
    rfl
  · obtain ⟨hr, hpath⟩ := rowAt_eq_some hrow
    obtain ⟨file, ⟨f, rfl, rfl⟩, hget⟩ := get_of_owns now hr
    simp only [FsEnv.calm_inode, FsEnv.calm_file, FsEnv.calm_now, hino, hget]
    unfold dirText
    rw [if_neg hne, ← hpath]
    rfl

/-- What a row is shown as when it has a time that can be shown. -/
theorem attr_of_shown {r : FileRow} {file : CachedFile} (hshown : ShownAs r file) (hdated : 0 ≤ r.modifiedAt)
    (ino : UInt64) : ∃ attr, cachedFileToAttr file ino = some attr ∧ attr.ino = ino ∧
      decide (attr.kind = .directory) = decide (r.isFolder ≠ 0) := by
  obtain ⟨f, rfl, rfl⟩ := hshown
  have htime : systemTime (dbFileToCachedFile f.stored).modifiedTime.timestamp =
      some f.modifiedAt.timestamp.toNat := by
    show systemTime f.modifiedAt.floor.timestamp = _
    rw [DateTime.timestamp_floor]
    exact if_pos hdated
  unfold cachedFileToAttr
  rw [htime]
  refine ⟨_, rfl, rfl, ?_⟩
  show decide (kindOf (dbFileToCachedFile f.stored) = .directory) = decide ((if f.isFolder then (1 : Int) else 0) ≠ 0)
  have hkind : kindOf (dbFileToCachedFile f.stored) = if f.isFolder then .directory else .regularFile := rfl
  rw [hkind]
  cases f.isFolder <;> rfl

/-- The lookups follow the tree of the table. -/
theorem lookup_follows (now : DateTime) (scan : Scan) (hwalkable : c.Walkable) :
    Follows (c.tree scan) (lookupName now scan) FileAttr.ino (fun attr => attr.kind = .directory) IsName (HasRoom c)
      (StandsFor scan c) (ShowsRow c) := by
  constructor
  · intro n ino base name fs hgood hstands hname hrow
    have hpath := parentPath_standsFor now hwalkable hgood hstands
    have hchild := hwalkable.find_child scan now hstands.1 hname.2
    rw [show c.rowAt scan (base ++ [name]) = none from hrow] at hchild
    obtain ⟨rfl, -, -⟩ := hgood
    unfold lookupName lookup OsStr.toStr
    simp only [hpath, FsEnv.calm_scan, FsEnv.calm_list, FsEnv.calm_now,
      (getChildren_spec scan now (dirText base) fs.metadataCache).1]
    cases hfind : (fs.metadataCache.childrenAt scan now (dirText base)).find? fun child => child.name = name with
    | none => rfl
    | some child =>
      rw [hfind] at hchild
      cases hchild
  · intro n ino base name fs r hgood hstands hname hrow
    have hpath := parentPath_standsFor now hwalkable hgood hstands
    have hchild := hwalkable.find_child scan now hstands.1 hname.2
    have hrow' : c.rowAt scan (base ++ [name]) = some r := hrow
    rw [hrow'] at hchild
    obtain ⟨rfl, hready, hroom⟩ := hgood
    have hr := (rowAt_eq_some hrow').1
    cases hfind : (fs.metadataCache.childrenAt scan now (dirText base)).find? fun child => child.name = name with
    | none =>
      rw [hfind] at hchild
      cases hchild
    | some child =>
      rw [hfind] at hchild
      have hshown : ShownAs r child := by
        cases hchild
        assumption
      obtain ⟨inode, m, hallocate, hext, hmem⟩ := hready.getOrAllocate (by omega) child.fileId
      obtain ⟨attr, hattr, hino, hdir⟩ := attr_of_shown hshown (hwalkable.dated r hr) inode
      have hlookup : lookupName now scan ino name fs = (some attr, { fs with inodeManager := m }) := by
        unfold lookupName lookup OsStr.toStr
        simp only [hpath, FsEnv.calm_scan, FsEnv.calm_list, FsEnv.calm_now,
          (getChildren_spec scan now (dirText base) fs.metadataCache).1, hfind, FsEnv.calm_allocate, hallocate, hattr]
      have hid : child.fileId = ⟨r.providerFileId⟩ := by
        obtain ⟨f, rfl, rfl⟩ := hshown
        rfl
      have hnumber : m.getFileId none attr.ino = .ok (some ⟨r.providerFileId⟩) := by
        rw [hino, ← hid]
        exact InodeManager.getFileId_eq_some.2 hmem
      rw [hlookup]
      refine ⟨attr, rfl, hdir, ⟨hr, hnumber, child, hshown, hino.symm ▸ hattr⟩, ⟨rfl, hext.ready, ?_⟩, ?_, ?_⟩
      · have hnext := hext.next
        show m.nextInode.toNat + n ≤ 2 ^ 63
        omega
      · intro name' hname'
        rcases List.mem_append.1 hname' with hbase | hlast
        · exact hstands.1 name' hbase
        · obtain rfl := List.mem_singleton.1 hlast
          exact hname
      · exact .inr ⟨List.append_ne_nil_of_right_ne_nil base (List.cons_ne_nil name []), r, hrow', hnumber⟩

/-! ## What a path reaches -/

/-- The walk along the names ends with the attributes of the row. -/
def Reaches (now : DateTime) (scan : Scan) (fs : CloudSyncFS) (names : List Str) (r : FileRow) : Prop :=
  ∃ attr, (fs.walk now scan names).1 = some attr ∧ ShowsRow fs.metadataCache attr r (fs.walk now scan names).2

/-- A number is that of one row. -/
theorem ShowsRow.unique {attr : FileAttr} {r r' : FileRow} {fs : CloudSyncFS} (h : ShowsRow c attr r fs)
    (h' : ShowsRow c attr r' fs) : r = r' := by
  have hid : (⟨r.providerFileId⟩ : FileId) = ⟨r'.providerFileId⟩ := by
    have hsame := h.2.1.symm.trans h'.2.1
    exact Option.some.inj (Except.ok.inj hsame)
  exact List.inj_on_of_nodup_map c.db.files.keysNodup h.1.1 h'.1.1
    (Prod.ext (h.1.2.trans h'.1.2.symm) (congrArg FileId.val hid))

theorem walk_rel {fs : CloudSyncFS} (now : DateTime) (scan : Scan) (hready : fs.inodeManager.Ready)
    (hwalkable : fs.metadataCache.Walkable) {names : List Str} (hnames : ∀ name ∈ names, IsName name)
    (hroom : fs.inodeManager.nextInode.toNat + names.length ≤ 2 ^ 63) :
    Option.Rel (fun attr r => ShowsRow fs.metadataCache attr r (fs.walk now scan names).2)
      (fs.walk now scan names).1 ((fs.metadataCache.tree scan).find [] names) :=
  (lookup_follows now scan hwalkable).walk_find names fuseRootInode [] fs ⟨rfl, hready, hroom⟩
    ⟨List.forall_mem_nil _, .inl ⟨rfl, rfl⟩⟩ hnames

theorem reaches_iff_find {fs : CloudSyncFS} (now : DateTime) (scan : Scan) (hready : fs.inodeManager.Ready)
    (hwalkable : fs.metadataCache.Walkable) {names : List Str} (hnames : ∀ name ∈ names, IsName name)
    (hroom : fs.inodeManager.nextInode.toNat + names.length ≤ 2 ^ 63) (r : FileRow) :
    Reaches now scan fs names r ↔ (fs.metadataCache.tree scan).find [] names = some r := by
  have hrel := walk_rel now scan hready hwalkable hnames hroom
  constructor
  · rintro ⟨attr, hattr, hshows⟩
    rw [hattr] at hrel
    cases hfind : (fs.metadataCache.tree scan).find [] names with
    | none =>
      rw [hfind] at hrel
      cases hrel
    | some r' =>
      rw [hfind] at hrel
      have hshows' : ShowsRow fs.metadataCache attr r' (fs.walk now scan names).2 := by
        cases hrel
        assumption
      rw [hshows.unique hshows']
  · intro hfind
    rw [hfind] at hrel
    cases hattr : (fs.walk now scan names).1 with
    | none =>
      rw [hattr] at hrel
      cases hrel
    | some attr =>
      rw [hattr] at hrel
      refine ⟨attr, hattr, ?_⟩
      cases hrel
      assumption

/-- On a table that can be walked, whatever the names: the kernel's walk reaches a row if and only if it is the first
one at the path of the names and the first row at every path before it is that of a folder. So a file is reached by
one path only. -/
theorem walk_reaches (now : DateTime) (scan : Scan) (fs : CloudSyncFS) (hready : fs.inodeManager.Ready)
    (hwalkable : fs.metadataCache.Walkable) (names : List Str) (hnames : ∀ name ∈ names, IsName name)
    (hroom : fs.inodeManager.nextInode.toNat + names.length ≤ 2 ^ 63) (r : FileRow) :
    (Reaches now scan fs names r ↔ names ≠ [] ∧ fs.metadataCache.rowAt scan names = some r ∧
      ∀ ds, ds <+: names → ds ≠ [] → ds ≠ names → ∃ u, fs.metadataCache.rowAt scan ds = some u ∧ u.isFolder ≠ 0) ∧
    ∀ names', (∀ name ∈ names', IsName name) →
      fs.inodeManager.nextInode.toNat + names'.length ≤ 2 ^ 63 →
      Reaches now scan fs names r → Reaches now scan fs names' r → names = names' := by
  have hfind : ∀ {ns : List Str}, (∀ name ∈ ns, IsName name) →
      fs.inodeManager.nextInode.toNat + ns.length ≤ 2 ^ 63 → Reaches now scan fs ns r →
        fs.metadataCache.rowAt scan ns = some r := fun hns hfits h =>
    (NameTree.Tree.find_eq_some_iff.1 ((reaches_iff_find now scan hready hwalkable hns hfits r).1 h)).2.1
  constructor
  · rw [reaches_iff_find now scan hready hwalkable hnames hroom, NameTree.Tree.find_eq_some_iff]
    refine and_congr_right fun _ => and_congr_right fun _ => ?_
    refine forall_congr' fun ds => imp_congr_right fun _ => imp_congr_right fun _ => imp_congr_right fun _ => ?_
    exact exists_congr fun u => and_congr_right fun _ => decide_eq_true_iff
  · intro names' hnames' hroom' h h'
    have hpath := (rowAt_eq_some (hfind hnames hroom h)).2
    have hpath' := (rowAt_eq_some (hfind hnames' hroom' h')).2
    rw [← segments_pathText hnames, ← segments_pathText hnames', ← hpath, ← hpath']

/-- A folder and the file in it. -/
def folderListing : List CloudItem :=
  [{ sampleItem ['d'] ['d'] with path := CloudPath.new ['/', 'd'], isFolder := true },
    { sampleItem ['f'] ['f'] with path := CloudPath.new ['/', 'd', '/', 'f'] }]

/-- The mount of a table after the first start of the process. -/
def freshMount (c : MetadataCache) : CloudSyncFS := ⟨⟨(InodeSession.start.run [.restart none none none]).db, 2⟩, c⟩

theorem freshMount_ready (c : MetadataCache) : (freshMount c).inodeManager.Ready := by
  have hbelow : ∀ before ∈ [InodeAction.restart none none none].inits, (InodeSession.start.run before).Below := by
    decide +kernel
  have hroot : ∀ a ∈ [InodeAction.restart none none none], InodeSession.KeepsRoot a := by decide
  exact InodeManager.ready_of_run hroot (fun before hbefore => hbelow before ((List.mem_inits _ _).2 hbefore)) rfl

/-- The table with the rows of the folder and of the file. -/
def folderCache : MetadataCache :=
  ⟨folderListing.foldl (fun db item => (upsertSection sampleAccount item DateTime.epoch db).2)
    (Database.empty [sampleAccount]), sampleAccount⟩

theorem folderCache_walkable : folderCache.Walkable where
  named r hr := by
    rcases List.mem_cons.1 hr.1 with rfl | hr
    · exact ⟨by decide, [], rfl⟩
    · cases List.mem_singleton.1 hr
      exact ⟨by decide, ['/', 'd'], rfl⟩
  dated r hr := by
    rcases List.mem_cons.1 hr.1 with rfl | hr
    · exact le_refl 0
    · cases List.mem_singleton.1 hr
      exact le_refl 0
  rootless := rfl

theorem folder_only {ds : List Str} (hds : ds <+: [['d'], ['f']]) (hne : ds ≠ []) (hproper : ds ≠ [['d'], ['f']]) :
    ds = [['d']] := by
  have hall : ∀ ds ∈ [['d'], ['f']].inits, ds ≠ [] → ds ≠ [['d'], ['f']] → ds = [['d']] := by decide
  exact hall ds ((List.mem_inits _ _).2 hds) hne hproper

/-- The file is reached through the folder. -/
theorem walk_reaches_sample :
    ∃ r, r.isFolder = 0 ∧ Reaches DateTime.epoch Scan.byRowid (freshMount folderCache) [['d'], ['f']] r := by
  refine ⟨_, rfl, (walk_reaches DateTime.epoch Scan.byRowid (freshMount folderCache) (freshMount_ready _)
    folderCache_walkable [['d'], ['f']] (by decide) (by decide +kernel) _).1.2 ⟨by decide, rfl, ?_⟩⟩
  intro ds hds hne hproper
  cases folder_only hds hne hproper
  exact ⟨_, rfl, by decide⟩

end CloudSyncFS

/-! ## The items of a provider -/

/-- The path of an item as it is read back from its row. -/
def CloudItem.storedPath (item : CloudItem) : Str := (CloudPath.new item.path.asStr).asStr

/-- A listing that can be mounted: different ids, different paths with the names at their ends, times from 1970 on, and
no item with the file id of the root. -/
structure Mountable (items : List CloudItem) : Prop where
  ids : (items.map CloudItem.id).Nodup
  paths : ∀ a ∈ items, ∀ b ∈ items, a.storedPath = b.storedPath → a = b
  named : ∀ item ∈ items, '/' ∉ item.name ∧ ∃ pre, item.storedPath = pre ++ '/' :: item.name
  dated : ∀ item ∈ items, 0 ≤ item.modified.timestamp
  rootless : ∀ item ∈ items, item.id ≠ ⟨rootFileId⟩

namespace MetadataCache

/-- The rows of the account are those of the items. -/
def Holds (c : MetadataCache) (items : List CloudItem) : Prop :=
  ∀ id m, c.db.metadataOf c.accountId id = some m ↔ ∃ item ∈ items, item.id = id ∧ item.metadata = m

variable {c : MetadataCache} {items : List CloudItem}

theorem metadataOf_owns {r : FileRow} (hr : c.Owns r) :
    c.db.metadataOf c.accountId ⟨r.providerFileId⟩ = some r.metadata := by
  have hrow : c.db.rowOf c.accountId ⟨r.providerFileId⟩ = some r := by
    unfold Database.rowOf
    rw [← hr.2]
    exact FilesTable.mem_iff_rowAt.1 hr.1
  unfold Database.metadataOf
  rw [hrow]
  rfl

theorem Holds.item_of_row (h : c.Holds items) {r : FileRow} (hr : c.Owns r) :
    ∃ item ∈ items, item.id = ⟨r.providerFileId⟩ ∧ item.metadata = r.metadata :=
  (h _ _).1 (metadataOf_owns hr)

theorem Holds.row_of_item (h : c.Holds items) {item : CloudItem} (hitem : item ∈ items) :
    ∃ r, c.Owns r ∧ item.id = ⟨r.providerFileId⟩ ∧ item.metadata = r.metadata := by
  have hmeta := (h item.id item.metadata).2 ⟨item, hitem, rfl, rfl⟩
  obtain ⟨r, hr, hmetadata⟩ := Option.map_eq_some_iff.1 hmeta
  obtain ⟨hmem, hkey⟩ := FilesTable.rowAt_eq_some.1 hr
  obtain ⟨hacc, hid⟩ := Prod.mk.inj hkey
  exact ⟨r, ⟨hmem, hacc⟩, congrArg FileId.mk hid.symm, hmetadata.symm⟩

/-- An item and its row have one path. -/
theorem storedPath_of_metadata {item : CloudItem} {r : FileRow} (h : item.metadata = r.metadata) :
    item.storedPath = (CloudPath.new r.path).asStr := by
  have hpath : item.path.asStr = r.path := congrArg Metadata.path h
  unfold CloudItem.storedPath
  rw [hpath]

theorem Holds.walkable (h : c.Holds items) (hitems : Mountable items) : c.Walkable := by
  constructor
  · intro r hr
    obtain ⟨item, hitem, -, hmeta⟩ := h.item_of_row hr
    obtain ⟨hno, pre, hpath⟩ := hitems.named item hitem
    have hname : item.name = r.name := congrArg Metadata.name hmeta
    rw [← hname, ← storedPath_of_metadata hmeta]
    exact ⟨hno, pre, hpath⟩
  · intro r hr
    obtain ⟨item, hitem, -, hmeta⟩ := h.item_of_row hr
    have htime : item.modified.timestamp = r.modifiedAt := congrArg Metadata.modifiedAt hmeta
    rw [← htime]
    exact hitems.dated item hitem
  · cases hrow : c.db.rowOf c.accountId ⟨rootFileId⟩ with
    | none => rfl
    | some r =>
      have hmeta : c.db.metadataOf c.accountId ⟨rootFileId⟩ = some r.metadata := by
        unfold Database.metadataOf
        rw [hrow]
        rfl
      obtain ⟨item, hitem, hid, -⟩ := (h _ _).1 hmeta
      exact absurd hid (hitems.rootless item hitem)

/-- With different paths, the row at a path does not depend on the order of the rows. -/
theorem Holds.rowAt_iff (h : c.Holds items) (hitems : Mountable items) (scan : Scan) {names : List Str} {r : FileRow} :
    c.rowAt scan names = some r ↔ c.Owns r ∧ (CloudPath.new r.path).asStr = pathText names := by
  refine ⟨rowAt_eq_some, fun ⟨hr, hpath⟩ => ?_⟩
  cases hrow : c.rowAt scan names with
  | none =>
    unfold rowAt at hrow
    have hnot := List.find?_eq_none.1 hrow r (Scan.mem_accountRows.2 hr)
    exact absurd (decide_eq_true hpath) hnot
  | some r' =>
    obtain ⟨hr', hpath'⟩ := rowAt_eq_some hrow
    obtain ⟨item, hitem, hid, hmeta⟩ := h.item_of_row hr
    obtain ⟨item', hitem', hid', hmeta'⟩ := h.item_of_row hr'
    have hsame : item' = item := by
      refine hitems.paths item' hitem' item hitem ?_
      rw [storedPath_of_metadata hmeta, storedPath_of_metadata hmeta', hpath, hpath']
    have hkey : (⟨r'.providerFileId⟩ : FileId) = ⟨r.providerFileId⟩ := by rw [← hid, ← hid', hsame]
    exact congrArg some (List.inj_on_of_nodup_map c.db.files.keysNodup hr'.1 hr.1
      (Prod.ext (hr'.2.trans hr.2.symm) (congrArg FileId.val hkey)))

/-- There is a folder at a path in the table when one is listed there. -/
theorem Holds.folder_iff (h : c.Holds items) (hitems : Mountable items) (scan : Scan) (names : List Str) :
    (∃ u, c.rowAt scan names = some u ∧ u.isFolder ≠ 0) ↔
      ∃ folder ∈ items, folder.isFolder = true ∧ folder.storedPath = pathText names := by
  constructor
  · rintro ⟨u, hu, hfolder⟩
    obtain ⟨hr, hpath⟩ := (h.rowAt_iff hitems scan).1 hu
    obtain ⟨item, hitem, -, hmeta⟩ := h.item_of_row hr
    have hkind : item.isFolder = (u.isFolder != 0) := congrArg Metadata.isFolder hmeta
    refine ⟨item, hitem, hkind.trans ?_, (storedPath_of_metadata hmeta).trans hpath⟩
    rwa [bne_iff_ne]
  · rintro ⟨folder, hitem, hfolder, hpath⟩
    obtain ⟨u, hu, -, hmeta⟩ := h.row_of_item hitem
    have hkind : folder.isFolder = (u.isFolder != 0) := congrArg Metadata.isFolder hmeta
    refine ⟨u, (h.rowAt_iff hitems scan).2 ⟨hu, (storedPath_of_metadata hmeta).symm.trans hpath⟩, ?_⟩
    rwa [hfolder, eq_comm, bne_iff_ne] at hkind

end MetadataCache

namespace CloudSyncFS

open MetadataCache

/-- The walk along the names ends with the attributes of the item, and its number. -/
def Presents (now : DateTime) (scan : Scan) (fs : CloudSyncFS) (names : List Str) (item : CloudItem) : Prop :=
  ∃ attr, (fs.walk now scan names).1 = some attr ∧ Shows item attr ∧
    (attr.kind = .directory ↔ item.isFolder = true) ∧
    (fs.walk now scan names).2.inodeManager.getFileId none attr.ino = .ok (some item.id)

/-- The attributes of a row show the item whose metadata it has. -/
theorem shows_of_row {c : MetadataCache} {attr : FileAttr} {r : FileRow} {fs : CloudSyncFS}
    (h : ShowsRow c attr r fs) {item : CloudItem} (hmeta : item.metadata = r.metadata) :
    Shows item attr ∧ (attr.kind = .directory ↔ item.isFolder = true) := by
  obtain ⟨-, -, file, ⟨f, rfl, rfl⟩, hattr⟩ := h
  have hrow : f.toRow.metadata = f.metadata := congrArg RowState.metadata f.rowState_toRow
  rw [hrow] at hmeta
  have hsize : item.size = f.size := congrArg Metadata.size hmeta
  have hfolder : item.isFolder = f.isFolder := congrArg Metadata.isFolder hmeta
  have htime : item.modified.timestamp = f.modifiedAt.timestamp := congrArg Metadata.modifiedAt hmeta
  have hkeeps : Keeps item f.stored := ⟨hsize.symm, htime.symm⟩
  have hkind : attr.kind = kindOf (dbFileToCachedFile f.stored) := by
    unfold cachedFileToAttr at hattr
    obtain ⟨mtime, -, hrecord⟩ := Option.map_eq_some_iff.1 hattr
    exact (congrArg FileAttr.kind hrecord).symm
  constructor
  · have hreply : replyAttr (dbFileToCachedFile f.stored) attr.ino = .ok attr := by
      unfold replyAttr
      rw [hattr]
    have hdated : 0 ≤ item.modified.timestamp := by
      by_contra hneg
      rw [(replyAttr_keeps hkeeps attr.ino).2 (Int.not_le.1 hneg)] at hreply
      cases hreply
    obtain ⟨attr', hattr', hshows⟩ := (replyAttr_keeps hkeeps attr.ino).1 hdated
    rw [hreply] at hattr'
    cases hattr'
    exact hshows
  · rw [hkind, hfolder]
    have hkindOf : kindOf (dbFileToCachedFile f.stored) = if f.isFolder then .directory else .regularFile := rfl
    rw [hkindOf]
    cases f.isFolder
    · exact iff_of_false (fun h => FileType.noConfusion h) Bool.false_ne_true
    · exact iff_of_true rfl rfl

/-- A mount of a table that holds a listing shows it as a tree. -/
theorem presents_iff (now : DateTime) (scan : Scan) {fs : CloudSyncFS} (hready : fs.inodeManager.Ready)
    {items : List CloudItem} (hitems : Mountable items) (hholds : fs.metadataCache.Holds items) {names : List Str}
    (hnames : ∀ name ∈ names, IsName name) (hroom : fs.inodeManager.nextInode.toNat + names.length ≤ 2 ^ 63)
    {item : CloudItem} (hitem : item ∈ items) :
    Presents now scan fs names item ↔ names ≠ [] ∧ item.storedPath = pathText names ∧
      ∀ ds, ds <+: names → ds ≠ [] → ds ≠ names →
        ∃ folder ∈ items, folder.isFolder = true ∧ folder.storedPath = pathText ds := by
  have hwalkable := hholds.walkable hitems
  obtain ⟨r, hr, hid, hmeta⟩ := hholds.row_of_item hitem
  have hreaches := (walk_reaches now scan fs hready hwalkable names hnames hroom r).1
  have hrow : fs.metadataCache.rowAt scan names = some r ↔ item.storedPath = pathText names := by
    rw [hholds.rowAt_iff hitems scan, storedPath_of_metadata hmeta, and_iff_right hr]
  have hpresents : Presents now scan fs names item ↔ Reaches now scan fs names r := by
    constructor
    · rintro ⟨attr, hattr, -, -, hnumber⟩
      -- the walk has ended at a row, and its number is that of the item
      have hrel := walk_rel now scan hready hwalkable hnames hroom
      rw [hattr] at hrel
      cases hfind : (fs.metadataCache.tree scan).find [] names with
      | none =>
        rw [hfind] at hrel
        cases hrel
      | some r' =>
        rw [hfind] at hrel
        have hshows : ShowsRow fs.metadataCache attr r' (fs.walk now scan names).2 := by
          cases hrel
          assumption
        have hsame : r' = r := by
          have hnumber' := hshows.2.1.symm.trans hnumber
          have hids : (⟨r'.providerFileId⟩ : FileId) = item.id := Option.some.inj (Except.ok.inj hnumber')
          exact List.inj_on_of_nodup_map fs.metadataCache.db.files.keysNodup hshows.1.1 hr.1
            (Prod.ext (hshows.1.2.trans hr.2.symm) (congrArg FileId.val (hids.trans hid)))
        exact ⟨attr, hattr, hsame ▸ hshows⟩
    · rintro ⟨attr, hattr, hshows⟩
      obtain ⟨hshown, hkind⟩ := shows_of_row hshows hmeta
      exact ⟨attr, hattr, hshown, hkind, hid ▸ hshows.2.1⟩
  rw [hpresents, hreaches, hrow]
  refine and_congr_right fun _ => and_congr_right fun _ => ?_
  refine forall_congr' fun ds => imp_congr_right fun _ => imp_congr_right fun _ => imp_congr_right fun _ => ?_
  exact hholds.folder_iff hitems scan ds

/-- What a walk ends at is an item of the listing. -/
theorem walk_presents (now : DateTime) (scan : Scan) {fs : CloudSyncFS} (hready : fs.inodeManager.Ready)
    {items : List CloudItem} (hitems : Mountable items) (hholds : fs.metadataCache.Holds items) {names : List Str}
    (hnames : ∀ name ∈ names, IsName name) (hroom : fs.inodeManager.nextInode.toNat + names.length ≤ 2 ^ 63)
    {attr : FileAttr} (hattr : (fs.walk now scan names).1 = some attr) :
    ∃ item ∈ items, Presents now scan fs names item := by
  have hrel := walk_rel now scan hready (hholds.walkable hitems) hnames hroom
  rw [hattr] at hrel
  cases hfind : (fs.metadataCache.tree scan).find [] names with
  | none =>
    rw [hfind] at hrel
    cases hrel
  | some r =>
    rw [hfind] at hrel
    have hshows : ShowsRow fs.metadataCache attr r (fs.walk now scan names).2 := by
      cases hrel
      assumption
    obtain ⟨item, hitem, hid, hmeta⟩ := hholds.item_of_row hshows.1
    obtain ⟨hshown, hkind⟩ := shows_of_row hshows hmeta
    exact ⟨item, hitem, attr, hattr, hshown, hkind, hid ▸ hshows.2.1⟩

/-- The mount shows the items as a tree: a path shows an item exactly when it is the item's own and there is a folder
of the items at every path before it, and it shows nothing else. -/
def ShowsTree (now : DateTime) (scan : Scan) (fs : CloudSyncFS) (items : List CloudItem) : Prop :=
  ∀ names, (∀ name ∈ names, IsName name) → fs.inodeManager.nextInode.toNat + names.length ≤ 2 ^ 63 →
    (∀ item ∈ items, Presents now scan fs names item ↔ names ≠ [] ∧ item.storedPath = pathText names ∧
      ∀ ds, ds <+: names → ds ≠ [] → ds ≠ names →
        ∃ folder ∈ items, folder.isFolder = true ∧ folder.storedPath = pathText ds) ∧
    ∀ attr, (fs.walk now scan names).1 = some attr → ∃ item ∈ items, Presents now scan fs names item

theorem showsTree_of_holds (now : DateTime) (scan : Scan) {fs : CloudSyncFS} (hready : fs.inodeManager.Ready)
    {items : List CloudItem} (hitems : Mountable items) (hholds : fs.metadataCache.Holds items) :
    fs.ShowsTree now scan items := by
  intro names hnames hroom
  exact ⟨fun item hitem => presents_iff now scan hready hitems hholds hnames hroom hitem,
    fun attr hattr => walk_presents now scan hready hitems hholds hnames hroom hattr⟩

/-- After an initial sync into an empty table, whatever the kernel has looked up before, the mount shows the listing as
a tree. Items of folders that are not listed cannot be reached, although they are stored. -/
theorem mount_shows_listing {π : Type} (env : Env π) (account : AccountId) {items : List CloudItem} (w : World π)
    {w' : World π} {n : Nat} (hempty : w.db.files.rows = [])
    (hlist : env.remote.listFolder CloudPath.root (w.remoteAfter env 1) = .ok items)
    (hrun : exec (handler env) (initialSync account) w = (.ok n, w')) (hitems : Mountable items) (now : DateTime)
    (scan : Scan) (fs : CloudSyncFS) (hcache : fs.metadataCache = ⟨w'.db, account⟩)
    (hready : fs.inodeManager.Ready) : fs.ShowsTree now scan items := by
  obtain ⟨-, hrep, -, -⟩ := initialSync_ok hlist hrun
  refine showsTree_of_holds now scan hready hitems ?_
  rw [hcache]
  refine hrep.metadataOf_items hempty fun item₁ h₁ item₂ h₂ hid => ?_
  rw [List.inj_on_of_nodup_map hitems.ids h₁ h₂ hid]

def folderRemote : Remote Unit := { sampleRemote with listFolder := fun _ _ => .ok folderListing }

theorem folderListing_mountable : Mountable folderListing where
  ids := by decide
  paths a ha b hb := by
    simp only [folderListing, List.mem_cons, List.not_mem_nil, or_false] at ha hb
    rcases ha with rfl | rfl <;> rcases hb with rfl | rfl
    · exact fun _ => rfl
    · exact fun h => absurd h (by decide)
    · exact fun h => absurd h (by decide)
    · exact fun _ => rfl
  named item hitem := by
    simp only [folderListing, List.mem_cons, List.not_mem_nil, or_false] at hitem
    rcases hitem with rfl | rfl
    · exact ⟨by decide, [], rfl⟩
    · exact ⟨by decide, ['/', 'd'], rfl⟩
  dated item hitem := by
    simp only [folderListing, List.mem_cons, List.not_mem_nil, or_false] at hitem
    rcases hitem with rfl | rfl
    · exact le_refl 0
    · exact le_refl 0
  rootless item hitem := by
    simp only [folderListing, List.mem_cons, List.not_mem_nil, or_false] at hitem
    rcases hitem with rfl | rfl
    · decide
    · decide

/-- The file is shown under the folder. -/
theorem mount_shows_listing_sample :
    ∃ w' : World Unit, exec (handler (Env.calm folderRemote)) (initialSync sampleAccount)
        ⟨Database.empty [sampleAccount], (), 0⟩ = (.ok 2, w') ∧
      ∃ item ∈ folderListing, item.isFolder = false ∧
        Presents DateTime.epoch Scan.byRowid (freshMount ⟨w'.db, sampleAccount⟩) [['d'], ['f']] item := by
  refine ⟨_, rfl, _, List.mem_cons_of_mem _ (List.mem_singleton_self _), rfl, ?_⟩
  have hlist : (Env.calm folderRemote).remote.listFolder CloudPath.root
      (World.remoteAfter (Env.calm folderRemote) ⟨Database.empty [sampleAccount], (), 0⟩ 1) = .ok folderListing := rfl
  have hshown := mount_shows_listing (Env.calm folderRemote) sampleAccount ⟨Database.empty [sampleAccount], (), 0⟩ rfl
    hlist rfl folderListing_mountable DateTime.epoch Scan.byRowid (freshMount _) rfl (freshMount_ready _)
    [['d'], ['f']] (by decide) (by decide +kernel)
  refine (hshown.1 _ (List.mem_cons_of_mem _ (List.mem_singleton_self _))).2
    ⟨by decide, rfl, fun ds hds hne hproper => ?_⟩
  cases folder_only hds hne hproper
  exact ⟨_, List.mem_cons_self, rfl, rfl⟩

end CloudSyncFS

end CloudSync
