/-
The children of a directory against `CloudPath::parent`. The parent of a path is found behind the slashes at its end,
a child of a directory has none after its prefix; the two agree on a table exactly when no row has a path on which
they cut at different slashes.
-/
import CloudSync.Core.CloudPaths
import CloudSync.Vfs.Directory
import CloudSync.Vfs.Convergence

namespace CloudSync

open LastSeparator

/-- The path of a directory: the root, or a path without a slash at its end. -/
structure DirectoryPath (d : CloudPath) : Prop where
  made : ∃ s, d = CloudPath.new s
  bare : d = CloudPath.root ∨ Bare '/' d.text

namespace MetadataCache

/-- The paths that are listed in the directory but have another parent, or have it as their parent and are not listed:
the directory with one slash after it, a child with slashes after it, and in the root also a child behind two slashes
and the paths of slashes only. -/
inductive Stray : Str → Str → Prop
  | itself (d : Str) : Stray d (childPrefix d)
  | slashed (d name : Str) (n : Nat) (hne : name ≠ []) (hno : '/' ∉ name) :
      Stray d (childPrefix d ++ name ++ List.replicate (n + 1) '/')
  | doubled (name : Str) (n : Nat) (hne : name ≠ []) (hno : '/' ∉ name) :
      Stray ['/'] ('/' :: '/' :: name ++ List.replicate n '/')
  | slashes (n : Nat) : Stray ['/'] (List.replicate (n + 2) '/')

/-- The text before the slash of the prefix. -/
def base (d : Str) : Str := if d = ['/'] then [] else d

variable {d p : CloudPath}

theorem childPrefix_base (hd : DirectoryPath d) :
    childPrefix d.text = base d.text ++ ['/'] ∧ Bare '/' (base d.text) := by
  unfold childPrefix base
  split
  · exact ⟨rfl, bare_nil⟩
  · rename_i hroot
    have hbare : Bare '/' d.text := hd.bare.resolve_left fun heq => hroot (congrArg CloudPath.text heq)
    exact ⟨congrArg (· ++ ['/']) hbare.trimEnd_eq, hbare⟩

/-- A directory that is not the root has a text of its own. -/
theorem base_ne_nil (hd : DirectoryPath d) : base d.text = [] ↔ d = CloudPath.root := by
  obtain ⟨s, rfl⟩ := hd.made
  obtain ⟨rest, hrest⟩ := CloudPath.new_head s
  unfold base
  split
  · exact iff_of_true rfl (congrArg CloudPath.mk ‹_›)
  · rename_i hroot
    refine iff_of_false (fun hnil => ?_) fun heq => hroot (congrArg CloudPath.text heq)
    rw [hrest] at hnil
    cases hnil

/-- A path is listed under the text before its last slash. -/
theorem isChild_iff {name : Str} (hno : '/' ∉ name) (before pre : Str) :
    isChild (before ++ ['/']) (pre ++ '/' :: name) = true ↔ before = pre := by
  unfold isChild
  rw [Bool.and_eq_true, Bool.not_eq_true', List.isPrefixOf_iff_prefix]
  constructor
  · rintro ⟨⟨rest, hrest⟩, hslash⟩
    rw [← hrest, List.drop_left] at hslash
    have hno' : '/' ∉ rest := fun hmem => by
      rw [List.contains_iff_mem.2 hmem] at hslash
      cases hslash
    rw [List.append_assoc, List.singleton_append] at hrest
    exact ((last_inj hno' hno).1 hrest).1
  · rintro rfl
    have hpath : before ++ '/' :: name = before ++ ['/'] ++ name := by rw [List.append_assoc, List.singleton_append]
    rw [hpath, List.drop_left]
    refine ⟨List.prefix_append _ _, ?_⟩
    rw [Bool.eq_false_iff]
    exact fun hmem => hno (List.contains_iff_mem.1 hmem)

/-- The parent of a path with a name, by the text of the directory. -/
theorem parent_iff (hd : DirectoryPath d) {name : Str} (hne : name ≠ []) (hno : '/' ∉ name) (pre : Str) (n : Nat) :
    (CloudPath.mk (pre ++ '/' :: name ++ List.replicate n '/')).parent = some d ↔
      base d.text = pre ∨ (d = CloudPath.root ∧ pre = ['/']) := by
  rw [CloudPath.parent_name hne hno, Option.some.injEq]
  by_cases hroot : d = CloudPath.root
  · subst hroot
    show _ ↔ [] = pre ∨ _
    split
    · exact iff_of_true rfl (.inl (Eq.symm ‹_›))
    · rename_i hpre
      rw [or_iff_right (fun heq => hpre heq.symm), and_iff_right rfl]
      exact ⟨congrArg CloudPath.text, congrArg CloudPath.mk⟩
  · have htext : base d.text = d.text := if_neg fun heq => hroot (congrArg CloudPath.mk heq)
    rw [or_iff_left (fun h => hroot h.1), htext]
    split
    · rename_i hpre
      refine iff_of_false (fun heq => hroot heq.symm) fun heq => hroot ?_
      rw [← base_ne_nil hd, htext, heq, hpre]
    · exact ⟨fun heq => (congrArg CloudPath.text heq).symm, fun heq => congrArg CloudPath.mk heq.symm⟩

/-! ## Stray paths -/

/-- A path of slashes is stray in the root. -/
theorem stray_slashes (hd : DirectoryPath d) (n : Nat) :
    Stray d.text (List.replicate (n + 1) '/') ↔ d = CloudPath.root := by
  constructor
  · intro h
    obtain ⟨hbefore, hbare⟩ := childPrefix_base hd
    generalize htext : d.text = t at h hbefore hbare
    generalize hpath : List.replicate (n + 1) '/' = q at h
    cases h with
    | itself =>
      rw [hbefore, List.replicate_succ'] at hpath
      have hbase := (List.append_inj' hpath rfl).1
      rw [← htext] at hbase hbare
      refine (base_ne_nil hd).1 ?_
      refine ((bare_inj hbare bare_nil 0 n).1 ?_).1
      rw [List.replicate_zero, List.append_nil, List.nil_append, hbase]
    | slashed _ name m hne hno =>
      rw [hbefore, List.append_assoc (base t), List.singleton_append] at hpath
      exact absurd hpath.symm (shape_ne hne hno _ _ _)
    | doubled name m hne hno => exact absurd hpath.symm (shape_ne hne hno ['/'] m _)
    | slashes m => exact congrArg CloudPath.mk htext
  · rintro rfl
    cases n with
    | zero => exact .itself ['/']
    | succ n => exact .slashes n

/-- When a path with a name is stray. -/
theorem stray_name (hd : DirectoryPath d) {name : Str} (hne : name ≠ []) (hno : '/' ∉ name) (pre : Str) (n : Nat) :
    Stray d.text (pre ++ '/' :: name ++ List.replicate n '/') ↔
      (n = 1 ∧ base d.text = pre ++ '/' :: name) ∨ (0 < n ∧ base d.text = pre) ∨
        (d = CloudPath.root ∧ pre = ['/']) := by
  obtain ⟨hbefore, hbare⟩ := childPrefix_base hd
  constructor
  · intro h
    generalize htext : d.text = t at h hbefore hbare ⊢
    generalize hpath : pre ++ '/' :: name ++ List.replicate n '/' = q at h
    cases h with
    | itself =>
      rw [hbefore] at hpath
      obtain ⟨hbase, hn⟩ := (bare_inj (bare_name hne hno pre) hbare n 1).1 hpath
      exact .inl ⟨hn, hbase.symm⟩
    | slashed _ name' m hne' hno' =>
      rw [hbefore, List.append_assoc (base t), List.singleton_append] at hpath
      obtain ⟨hbase, -, hn⟩ := (shape_inj hne hno hne' hno' _ _ _ _).1 hpath
      exact .inr (.inl ⟨by omega, hbase.symm⟩)
    | doubled name' m hne' hno' =>
      have hpre := ((shape_inj hne hno hne' hno' pre ['/'] n m).1 hpath).1
      exact .inr (.inr ⟨congrArg CloudPath.mk htext, hpre⟩)
    | slashes m => exact absurd hpath (shape_ne hne hno _ _ _)
  · rintro (⟨rfl, hbase⟩ | ⟨hpos, hbase⟩ | ⟨rfl, rfl⟩)
    · have hself := Stray.itself d.text
      rwa [hbefore, hbase] at hself
    · obtain ⟨m, rfl⟩ : ∃ m, n = m + 1 := ⟨n - 1, by omega⟩
      have hchild := Stray.slashed d.text name m hne hno
      rwa [hbefore, List.append_assoc (base d.text), List.singleton_append, hbase] at hchild
    · exact .doubled name n hne hno

/-- The listing and the parent agree on the paths that are not stray. -/
theorem isChild_parent_iff (hd : DirectoryPath d) (s : Str) :
    (isChild (childPrefix d.text) (CloudPath.new s).asStr = true ↔ (CloudPath.new s).parent = some d) ↔
      ¬ Stray d.text (CloudPath.new s).asStr := by
  obtain ⟨hbefore, hbare⟩ := childPrefix_base hd
  obtain ⟨rest, hrest⟩ := CloudPath.new_head s
  have hpath : CloudPath.new s = ⟨'/' :: rest⟩ := congrArg CloudPath.mk hrest
  rw [hpath, hbefore]
  show (isChild _ ('/' :: rest) = true ↔ _) ↔ ¬ Stray _ ('/' :: rest)
  rcases exists_shape rest with ⟨n, heq⟩ | ⟨pre, name, n, hne, hno, heq⟩
  · -- only slashes: the root lists `/`, whose parent is none, and is the parent of the others
    have hchild : isChild (base d.text ++ ['/']) (List.replicate (n + 1) '/') = true ↔ d = CloudPath.root ∧ n = 0 := by
      rw [List.replicate_succ', isChild_iff List.not_mem_nil, ← base_ne_nil hd]
      have hinj := bare_inj hbare (bare_nil : Bare '/' []) 0 n
      rw [List.replicate_zero, List.append_nil, List.nil_append] at hinj
      rw [hinj, eq_comm (b := n)]
    rw [heq, hchild, stray_slashes hd, CloudPath.parent_slashes]
    by_cases hn : n = 0
    · rw [if_pos hn]
      simp [hn]
    · rw [if_neg hn]
      simp [hn, eq_comm]
  · have hroot : d = CloudPath.root ∧ pre = ['/'] → base d.text = [] := fun h => (base_ne_nil hd).2 h.1
    rw [heq, stray_name hd hne hno, parent_iff hd hne hno]
    cases n with
    | zero =>
      -- listed under the text before the name, which is the parent unless it is the slash of the root
      have hno_slash : ¬ (0 = 1 ∧ base d.text = pre ++ '/' :: name) := fun h => absurd h.1 (by decide)
      have hno_pos : ¬ (0 < 0 ∧ base d.text = pre) := fun h => absurd h.1 (Nat.lt_irrefl 0)
      rw [List.replicate_zero, List.append_nil, isChild_iff hno, or_iff_right hno_slash, or_iff_right hno_pos]
      refine ⟨fun hsame hdoubled => ?_, fun hnot => (or_iff_left hnot).symm⟩
      have hbase := hsame.2 (.inr hdoubled)
      rw [hroot hdoubled, hdoubled.2] at hbase
      cases hbase
    | succ n =>
      -- listed, if at all, under itself without the slash, which is longer than the parent
      have hchild : base d.text = pre ++ '/' :: name ++ List.replicate n '/' ↔
          n + 1 = 1 ∧ base d.text = pre ++ '/' :: name := by
        have hinj := bare_inj hbare (bare_name hne hno pre) 0 n
        rw [List.replicate_zero, List.append_nil] at hinj
        rw [hinj, and_comm, Nat.add_eq_right, eq_comm (b := n)]
      have hlonger : base d.text = pre ++ '/' :: name → ¬ (base d.text = pre ∨ (d = CloudPath.root ∧ pre = ['/'])) := by
        rintro hbase (hpre | hdoubled)
        · rw [hpre] at hbase
          exact List.cons_ne_nil _ _ (List.self_eq_append_right.1 hbase)
        · rw [hroot hdoubled] at hbase
          exact List.append_ne_nil_of_right_ne_nil pre (List.cons_ne_nil _ _) hbase.symm
      rw [List.replicate_succ', ← List.append_assoc, isChild_iff List.not_mem_nil, hchild,
        and_iff_right (Nat.succ_pos n)]
      refine ⟨fun hsame hstray => ?_, fun hnot => ?_⟩
      · rcases hstray with hself | hparent
        · exact hlonger hself.2 (hsame.1 hself)
        · exact hlonger (hsame.2 hparent).2 hparent
      · exact iff_of_false (fun hself => hnot (.inl hself)) fun hparent => hnot (.inr hparent)

/-- A path that is listed in itself is a directory with one slash after it, or the root. -/
theorem stray_of_self {s : Str}
    (h : isChild (childPrefix (CloudPath.new s).asStr) (CloudPath.new s).asStr = true) :
    ∃ d, DirectoryPath d ∧ Stray d.text (CloudPath.new s).asStr := by
  obtain ⟨body, n, heq, hbare⟩ := exists_bare '/' (CloudPath.new s).asStr
  have hbefore : childPrefix (CloudPath.new s).asStr = body ++ ['/'] := by
    unfold childPrefix
    split
    · rename_i hroot
      have hbody := ((bare_inj hbare bare_nil n 1).1 (heq.symm.trans hroot)).1
      rw [hbody]
      rfl
    · have htrim : trimEnd '/' (CloudPath.new s).asStr = body := by rw [heq, trimEnd_replicate, hbare.trimEnd_eq]
      exact congrArg (· ++ ['/']) htrim
  have hself : (CloudPath.new s).asStr = body ++ ['/'] := by
    cases n with
    | zero =>
      -- nothing is listed under a longer prefix
      rw [List.replicate_zero, List.append_nil] at heq
      rw [hbefore, heq] at h
      unfold isChild at h
      rw [Bool.and_eq_true, List.isPrefixOf_iff_prefix] at h
      have hlength := h.1.length_le
      rw [List.length_append, List.length_singleton] at hlength
      omega
    | succ n =>
      rw [hbefore, heq, List.replicate_succ', ← List.append_assoc, isChild_iff List.not_mem_nil] at h
      rw [heq, List.replicate_succ', ← List.append_assoc, ← h]
  by_cases hbody : body = []
  · subst hbody
    exact ⟨CloudPath.root, ⟨⟨['/'], rfl⟩, .inl rfl⟩, hself ▸ .itself ['/']⟩
  · have hmade : CloudPath.new body = ⟨body⟩ := CloudPath.new_initial (hself ▸ List.prefix_append body ['/']) hbody
    have hd : DirectoryPath ⟨body⟩ := ⟨⟨body, hmade.symm⟩, .inr hbare⟩
    have hbase : base body = body := if_neg (hbare [])
    have hchildren : childPrefix body = base body ++ ['/'] := (childPrefix_base hd).1
    refine ⟨⟨body⟩, hd, ?_⟩
    rw [hself, ← congrArg (· ++ ['/']) hbase, ← hchildren]
    exact .itself body

/-! ## Tables -/

section

variable (scan : Scan) (now : DateTime) (c : MetadataCache)

/-- A row of the account. -/
def Owns (r : FileRow) : Prop := r ∈ c.db.files.rows ∧ r.accountId = c.accountId.val

/-- The row is among the children of the path. -/
def Lists (path : Str) (r : FileRow) : Prop :=
  ∃ children, c.getChildren scan none now path = .ok children ∧ ∃ file ∈ children, file.fileId.val = r.providerFileId

/-- The children of a directory are the rows whose parent it is. So no row is listed in itself or in two directories,
and one that is not the root is listed in its parent and nowhere else. -/
structure ChildrenExact : Prop where
  exact : ∀ d, DirectoryPath d → ∀ r, c.Owns r →
    (c.Lists scan now d.asStr r ↔ (CloudPath.new r.path).parent = some d)
  notItself : ∀ r, c.Owns r → ¬ c.Lists scan now (CloudPath.new r.path).asStr r
  one : ∀ d d', DirectoryPath d → DirectoryPath d' → ∀ r, c.Owns r →
    c.Lists scan now d.asStr r → c.Lists scan now d'.asStr r → d = d'
  listed : ∀ r, c.Owns r → (CloudPath.new r.path).isRoot = false → ∀ d, (CloudPath.new r.path).parent = some d →
    d = CloudPath.root ∨ Bare '/' d.text →
      c.Lists scan now d.asStr r ∧ ∀ d', DirectoryPath d' → c.Lists scan now d'.asStr r → d' = d

end

variable {scan : Scan} {now : DateTime} {c : MetadataCache}

theorem lists_iff {r : FileRow} (hr : c.Owns r) (path : Str) :
    c.Lists scan now path r ↔ isChild (childPrefix path) (CloudPath.new r.path).asStr = true := by
  have hchildren := (getChildren_rows scan now path c).1
  have hids := childrenAt_ids scan now path c
  constructor
  · rintro ⟨children, hok, file, hfile, hid⟩
    cases hchildren.symm.trans hok
    have hmem : r.providerFileId ∈ (c.childRows scan path).map FileRow.providerFileId := by
      rw [← hids, ← hid]
      exact List.mem_map_of_mem hfile
    -- the account has one row for the file id
    obtain ⟨r', hr', hid'⟩ := List.mem_map.1 hmem
    obtain ⟨hrow, hacc, hchild⟩ := mem_childRows.1 hr'
    have hsame := List.inj_on_of_nodup_map c.db.files.keysNodup hrow hr.1 (Prod.ext (hacc.trans hr.2.symm) hid')
    rwa [hsame] at hchild
  · intro hchild
    have hmem := List.mem_map_of_mem (f := FileRow.providerFileId)
      (mem_childRows.2 ⟨hr.1, hr.2, hchild⟩ : r ∈ c.childRows scan path)
    rw [← hids] at hmem
    obtain ⟨file, hfile, hid⟩ := List.mem_map.1 hmem
    exact ⟨_, hchildren, file, hfile, hid⟩

/-- The children of the directories are exact on a table exactly when none of its rows is stray in a directory. -/
theorem children_parent_iff (scan : Scan) (now : DateTime) (c : MetadataCache) :
    ChildrenExact scan now c ↔
      ∀ d, DirectoryPath d → ∀ r, c.Owns r → ¬ Stray d.text (CloudPath.new r.path).asStr := by
  constructor
  · intro h d hd r hr
    rw [← isChild_parent_iff hd, ← h.exact d hd r hr, lists_iff hr]
    exact Iff.rfl
  · intro h
    have hexact : ∀ d, DirectoryPath d → ∀ r, c.Owns r →
        (c.Lists scan now d.asStr r ↔ (CloudPath.new r.path).parent = some d) := fun d hd r hr => by
      rw [lists_iff hr]
      exact (isChild_parent_iff hd r.path).2 (h d hd r hr)
    refine ⟨hexact, fun r hr hself => ?_, fun d d' hd hd' r hr hl hl' => ?_, fun r hr _ d hparent hbare => ?_⟩
    · obtain ⟨d, hd, hstray⟩ := stray_of_self ((lists_iff hr _).1 hself)
      exact h d hd r hr hstray
    · exact Option.some.inj (((hexact d hd r hr).1 hl).symm.trans ((hexact d' hd' r hr).1 hl'))
    · refine ⟨(hexact d ⟨CloudPath.parent_made hparent, hbare⟩ r hr).2 hparent, fun d' hd' hl => ?_⟩
      exact Option.some.inj (((hexact d' hd' r hr).1 hl).symm.trans hparent)

/-- A file whose name ends with a slash. -/
def slashCache : MetadataCache :=
  ⟨(upsertSection sampleAccount (sampleItem ['f'] ['n', '/']) DateTime.epoch (Database.empty [sampleAccount])).2,
    sampleAccount⟩

/-- Its parent is the root, where it is not listed; it is listed in the directory that has its path. -/
theorem slash_misplaced :
    (slashCache.db.files.rows.map fun r => (CloudPath.new r.path).parent) = [some CloudPath.root] ∧
      slashCache.childrenAt Scan.byRowid DateTime.epoch ['/'] = [] ∧
      (slashCache.childrenAt Scan.byRowid DateTime.epoch ['/', 'n']).map CachedFile.fileId = [⟨['f']⟩] ∧
      ¬ ChildrenExact Scan.byRowid DateTime.epoch slashCache := by
  refine ⟨rfl, rfl, rfl, fun h => ?_⟩
  obtain ⟨r, hr, hparent⟩ : ∃ r, slashCache.Owns r ∧ (CloudPath.new r.path).parent = some CloudPath.root :=
    ⟨_, ⟨List.mem_singleton_self _, rfl⟩, rfl⟩
  obtain ⟨children, hchildren, file, hfile, -⟩ := (h.exact CloudPath.root ⟨⟨['/'], rfl⟩, .inl rfl⟩ r hr).2 hparent
  cases hchildren
  cases hfile

end MetadataCache

end CloudSync
