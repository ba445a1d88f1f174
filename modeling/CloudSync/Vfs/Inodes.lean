/-
`InodeManager`: inode numbers for file ids, from a counter in memory that a start of the process
rebuilds from the greatest stored number. While the counter stays below 2^63 the map is one to one
through every mix of allocations, removals and restarts.
-/
import CloudSync.Db.VfsInodes

namespace CloudSync

/-! ## The manager -/

/-- `FUSE_ROOT_INODE` -/
def fuseRootInode : UInt64 := 1

/-- `ROOT_FILE_ID` -/
def rootFileId : Str := "root".toList

/-- A manager: its table, and the counter. -/
structure InodeManager where
  db : InodesTable
  nextInode : UInt64

namespace InodeManager

/-- `InodeManager::new`: its result, and the table after it. -/
def new (max select insert : Fault) (db : InodesTable) : Except DbError InodeManager × InodesTable :=
  match getMaxInode max db with
  | .error e => (.error e, db)
  | .ok maxInode =>
    let nextInode := if maxInode = 0 then fuseRootInode + 1 else maxInode + 1
    match getOrInsertInode select insert rootFileId (fun () => (fuseRootInode, ())) db () with
    | (.error e, db, _) => (.error e, db)
    | (.ok _, db, _) => (.ok ⟨db, nextInode⟩, db)

/-- The counter has moved on even when the insert fails. It wraps at 2^64, as in a release build. -/
def getOrAllocate (select insert : Fault) (fileId : FileId) (m : InodeManager) : Except DbError UInt64 × InodeManager :=
  let (r, db, nextInode) := getOrInsertInode select insert fileId.val (fun c => (c, c + 1)) m.db m.nextInode
  (r, ⟨db, nextInode⟩)

def getFileId (fault : Fault) (inode : UInt64) (m : InodeManager) : Except DbError (Option FileId) :=
  (getFileIdByInode fault inode m.db).map (Option.map FileId.mk)

def getInode (fault : Fault) (fileId : FileId) (m : InodeManager) : Except DbError (Option UInt64) :=
  getInodeByFileId fault fileId.val m.db

def remove (fault : Fault) (fileId : FileId) (m : InodeManager) : Except DbError Unit × InodeManager :=
  ((removeInode fault fileId.val m.db).1.map fun _ => (), { m with db := (removeInode fault fileId.val m.db).2 })

end InodeManager

/-! ## Runs with restarts -/

/-- A start of the process, or a call of the running manager, with the failures of their statements. -/
inductive InodeAction
  | restart (max select insert : Fault)
  | getOrAllocate (fileId : FileId) (select insert : Fault)
  | remove (fileId : FileId) (fault : Fault)
deriving DecidableEq

/-- The table, the counter of the running manager, and the numbers returned so far. -/
structure InodeSession where
  db : InodesTable
  nextInode : Option UInt64
  returned : List (FileId × UInt64)

namespace InodeSession

/-- The database as the migration leaves it, before the first start. -/
def start : InodeSession := ⟨InodesTable.empty, none, []⟩

/-- One action. Without a manager, before the first start and after one that failed, a call does nothing. -/
def step (s : InodeSession) : InodeAction → InodeSession
  | .restart max select insert => match InodeManager.new max select insert s.db with
    | (.ok m, _) => { s with db := m.db, nextInode := some m.nextInode }
    | (.error _, db) => { s with db := db, nextInode := none }
  | .getOrAllocate fileId select insert => match s.nextInode with
    | none => s
    | some next => match InodeManager.getOrAllocate select insert fileId ⟨s.db, next⟩ with
      | (.ok inode, m) => ⟨m.db, some m.nextInode, s.returned ++ [(fileId, inode)]⟩
      | (.error _, m) => ⟨m.db, some m.nextInode, s.returned⟩
  | .remove fileId fault => match s.nextInode with
    | none => s
    | some next => { s with db := (InodeManager.remove fault fileId ⟨s.db, next⟩).2.db }

def run (s : InodeSession) (actions : List InodeAction) : InodeSession := actions.foldl step s

/-- The greatest stored number as `new` reads it. -/
def maxInode (s : InodeSession) : UInt64 := (s.db.max.map Int64.toUInt64).getD 0

/-- The counter `new` starts with. -/
def restored (s : InodeSession) : UInt64 := if s.maxInode = 0 then fuseRootInode + 1 else s.maxInode + 1

/-- What an action can do. -/
inductive Moves (s : InodeSession) : InodeAction → InodeSession → Prop
  | idle {a : InodeAction} : Moves s a s
  | stopped (max select insert : Fault) : Moves s (.restart max select insert) { s with nextInode := none }
  | started (max select insert : Fault) (r : InodeRow) (hr : r ∈ s.db.rows) (hid : r.fileId = rootFileId) :
      Moves s (.restart max select insert) { s with nextInode := some s.restored }
  | rooted (max select insert : Fault) (db : InodesTable) (hno : ∀ r ∈ s.db.rows, r.fileId ≠ rootFileId)
      (hrows : db.rows = s.db.rows ++ [⟨fuseRootInode.toInt64, rootFileId⟩]) :
      Moves s (.restart max select insert)
        { s with db := db, nextInode := some s.restored }
  | found (fileId : FileId) (select insert : Fault) (next : UInt64) (hnext : s.nextInode = some next)
      (r : InodeRow) (hr : r ∈ s.db.rows) (hid : r.fileId = fileId.val) :
      Moves s (.getOrAllocate fileId select insert) { s with returned := s.returned ++ [(fileId, r.inode.toUInt64)] }
  | skipped (fileId : FileId) (select insert : Fault) (next : UInt64) (hnext : s.nextInode = some next) :
      Moves s (.getOrAllocate fileId select insert) { s with nextInode := some (next + 1) }
  | allocated (fileId : FileId) (select insert : Fault) (next : UInt64) (hnext : s.nextInode = some next)
      (db : InodesTable) (hno : ∀ r ∈ s.db.rows, r.fileId ≠ fileId.val)
      (hrows : db.rows = s.db.rows ++ [⟨next.toInt64, fileId.val⟩]) :
      Moves s (.getOrAllocate fileId select insert) ⟨db, some (next + 1), s.returned ++ [(fileId, next)]⟩
  | removed (fileId : FileId) (hrunning : s.nextInode.isSome) :
      Moves s (.remove fileId none) { s with db := (s.db.delete fileId.val).2 }

theorem step_moves (s : InodeSession) (a : InodeAction) : s.Moves a (s.step a) := by
  cases a with
  | restart max select insert =>
    unfold step InodeManager.new getMaxInode
    cases max with
    | some message => exact .stopped _ _ _
    | none =>
      simp only
      generalize hg : getOrInsertInode select insert rootFileId (fun () => (fuseRootInode, ())) s.db () = g
      have hcases := getOrInsertInode_cases select insert rootFileId (fun () => (fuseRootInode, ())) s.db ()
      rw [hg] at hcases
      cases hcases with
      | unread message => exact .stopped _ _ _
      | found r hr hid => exact .started _ _ _ r hr hid
      | unwritten message => exact .stopped _ _ _
      | taken e hr => exact .stopped _ _ _
      | inserted db hno hrows => exact .rooted _ _ _ db hno hrows
  | getOrAllocate fileId select insert =>
    obtain ⟨db, _ | next, returned⟩ := s
    · exact .idle
    · unfold step InodeManager.getOrAllocate
      simp only
      generalize hg : getOrInsertInode select insert fileId.val (fun c : UInt64 => (c, c + 1)) db next = g
      have hcases := getOrInsertInode_cases select insert fileId.val (fun c : UInt64 => (c, c + 1)) db next
      rw [hg] at hcases
      cases hcases with
      | unread message => exact .idle
      | found r hr hid => exact .found _ _ _ next rfl r hr hid
      | unwritten message => exact .skipped _ _ _ next rfl
      | taken e hr => exact .skipped _ _ _ next rfl
      | inserted db' hno hrows => exact .allocated _ _ _ next rfl db' hno hrows
  | remove fileId fault =>
    obtain ⟨db, _ | next, returned⟩ := s
    · exact .idle
    · cases fault with
      | some message => exact .idle
      | none => exact .removed fileId rfl

/-! ## The counter after a start -/

/-- The row of the root. -/
def rootRow : InodeRow := ⟨fuseRootInode.toInt64, rootFileId⟩

/-- The root is there from the first start on. -/
structure Rooted (s : InodeSession) : Prop where
  root : s.db.rows = [] ∨ rootRow ∈ s.db.rows
  running : s.nextInode.isSome → rootRow ∈ s.db.rows

theorem start_rooted : start.Rooted where
  root := .inl rfl
  running h := by cases h

/-- The root is not removed. -/
def KeepsRoot : InodeAction → Prop
  | .remove fileId _ => fileId ≠ ⟨rootFileId⟩
  | _ => True

instance : DecidablePred KeepsRoot
  | .remove fileId _ => inferInstanceAs (Decidable (fileId ≠ ⟨rootFileId⟩))
  | .restart .. | .getOrAllocate .. => isTrue trivial

theorem toNat_add_one {n : UInt64} (h : n.toNat + 1 < 2 ^ 64) : (n + 1).toNat = n.toNat + 1 := by
  rw [UInt64.toNat_add]
  exact Nat.mod_eq_of_lt h

/-- The root row is the first one ever inserted. -/
theorem Rooted.nil_of_no_root {s : InodeSession} (h : s.Rooted) (hno : ∀ r ∈ s.db.rows, r.fileId ≠ rootFileId) :
    s.db.rows = [] := h.root.resolve_right fun hmem => hno _ hmem rfl

theorem Rooted.moves {s s' : InodeSession} {a : InodeAction} (h : s.Rooted) (hroot : KeepsRoot a)
    (hm : s.Moves a s') : s'.Rooted := by
  cases hm with
  | idle => exact h
  | stopped max select insert => exact ⟨h.root, fun hrun => by cases hrun⟩
  | started max select insert r hr hid =>
    refine ⟨h.root, fun _ => h.root.resolve_left fun hnil => ?_⟩
    rw [hnil] at hr
    cases hr
  | rooted max select insert db hno hrows =>
    have hmem : rootRow ∈ db.rows := by rw [hrows]; exact List.mem_append_right _ List.mem_cons_self
    exact ⟨.inr hmem, fun _ => hmem⟩
  | found fileId select insert next hnext r hr hid => exact ⟨h.root, h.running⟩
  | skipped fileId select insert next hnext => exact ⟨h.root, fun _ => h.running (by rw [hnext]; rfl)⟩
  | allocated fileId select insert next hnext db hno hrows =>
    have hmem : rootRow ∈ db.rows := by
      rw [hrows]; exact List.mem_append_left _ (h.running (by rw [hnext]; rfl))
    exact ⟨.inr hmem, fun _ => hmem⟩
  | removed fileId hrunning =>
    have hmem : rootRow ∈ (s.db.delete fileId.val).2.rows :=
      InodesTable.mem_delete.2 ⟨h.running hrunning, fun heq => hroot (congrArg FileId.mk heq.symm)⟩
    exact ⟨.inr hmem, fun _ => hmem⟩

/-- What `new` reads: 0 from an empty table, the greatest stored number otherwise. -/
theorem Rooted.maxInode {s : InodeSession} (h : s.Rooted) :
    s.db.rows = [] ∧ s.maxInode.toNat = 0 ∨
      0 < s.maxInode.toNat ∧ s.maxInode.toNat < 2 ^ 63 ∧ ∀ r ∈ s.db.rows, r.inode.toInt ≤ s.maxInode.toNat := by
  unfold InodeSession.maxInode
  cases hmax : s.db.max with
  | none => exact .inl ⟨InodesTable.max_eq_none.1 hmax, rfl⟩
  | some v =>
    obtain ⟨⟨r, hr, rfl⟩, hle⟩ := InodesTable.max_eq_some.1 hmax
    have hmem : rootRow ∈ s.db.rows := h.root.resolve_left fun hnil => by rw [hnil] at hr; cases hr
    have hone : 1 ≤ r.inode.toInt := hle rootRow hmem
    have hnat := toNat_toUInt64 (v := r.inode) (by omega)
    have hlt : r.inode.toInt < 2 ^ 63 := Int64.toInt_lt r.inode
    refine .inr ⟨?_, ?_, fun r' hr' => ?_⟩
    · show 0 < r.inode.toUInt64.toNat; omega
    · show r.inode.toUInt64.toNat < 2 ^ 63; omega
    · have := hle r' hr'
      show r'.inode.toInt ≤ r.inode.toUInt64.toNat; omega

theorem restored_eq {s : InodeSession} (hpos : 0 < s.maxInode.toNat) (hlt : s.maxInode.toNat < 2 ^ 63) :
    s.restored.toNat = s.maxInode.toNat + 1 := by
  have hne : s.maxInode ≠ 0 := fun h0 => by rw [h0] at hpos; exact absurd hpos (by decide)
  unfold InodeSession.restored
  rw [if_neg hne, toNat_add_one (by omega)]

/-- A restored counter is above the root and above every stored number. -/
theorem Rooted.restored {s : InodeSession} (h : s.Rooted) :
    1 < s.restored.toNat ∧ s.maxInode.toNat < s.restored.toNat ∧
      ∀ r ∈ s.db.rows, r.inode.toInt < s.restored.toNat := by
  rcases h.maxInode with ⟨hrows, hmax⟩ | ⟨hpos, hlt, hle⟩
  · unfold InodeSession.restored
    rw [if_pos (UInt64.toNat_inj.1 hmax), hmax, hrows]
    exact ⟨by decide, by decide, fun r hr => by cases hr⟩
  · rw [restored_eq hpos hlt]
    exact ⟨by omega, by omega, fun r hr => by have := hle r hr; omega⟩

/-! ## The map -/

/-- The counter is below 2^63. -/
def Below (s : InodeSession) : Prop := ∀ next, s.nextInode = some next → next.toNat < 2 ^ 63

instance (s : InodeSession) : Decidable s.Below :=
  @Option.decidableForallMem UInt64 (fun next => next.toNat < 2 ^ 63) _ s.nextInode

/-- The stored numbers are positive and below the counter. -/
structure Mapped (s : InodeSession) : Prop extends Rooted s where
  positive : ∀ r ∈ s.db.rows, 0 < r.inode.toInt
  below : ∀ next, s.nextInode = some next → 1 < next.toNat ∧ ∀ r ∈ s.db.rows, r.inode.toInt < next.toNat

theorem start_mapped : start.Mapped where
  toRooted := start_rooted
  positive _ hr := by cases hr
  below _ hnext := by cases hnext

theorem Mapped.moves {s s' : InodeSession} {a : InodeAction} (h : s.Mapped) (hroot : KeepsRoot a) (hbelow : s.Below)
    (hm : s.Moves a s') : s'.Mapped := by
  refine ⟨h.toRooted.moves hroot hm, ?_, ?_⟩
  · cases hm with
    | idle | stopped | started | found | skipped => exact h.positive
    | rooted max select insert db hno hrows =>
      rw [hrows, h.nil_of_no_root hno]
      rintro r hr
      rw [List.mem_singleton.1 hr]
      decide
    | allocated fileId select insert next hnext db hno hrows =>
      have hint := toInt_toInt64 (hbelow next hnext)
      have hone := (h.below next hnext).1
      rw [hrows]
      intro r hr
      rcases List.mem_append.1 hr with hr | hr
      · exact h.positive r hr
      · rw [List.mem_singleton.1 hr]
        show 0 < next.toInt64.toInt
        omega
    | removed fileId hrunning => exact fun r hr => h.positive r (InodesTable.mem_delete.1 hr).1
  · cases hm with
    | idle | found => exact h.below
    | stopped max select insert => exact fun next hnext => by cases hnext
    | started max select insert r hr hid =>
      rintro next ⟨⟩
      exact ⟨h.restored.1, h.restored.2.2⟩
    | rooted max select insert db hno hrows =>
      rintro next ⟨⟩
      refine ⟨h.restored.1, fun r hr => ?_⟩
      rw [hrows, h.nil_of_no_root hno] at hr
      rw [List.mem_singleton.1 hr]
      have := h.restored.1
      show (1 : Int) < s.restored.toNat
      omega
    | skipped fileId select insert next hnext =>
      rintro next' ⟨⟩
      have hlt := hbelow next hnext
      obtain ⟨hone, hrows⟩ := h.below next hnext
      rw [toNat_add_one (by omega)]
      exact ⟨by omega, fun r hr => by have := hrows r hr; omega⟩
    | allocated fileId select insert next hnext db hno hrows =>
      rintro next' ⟨⟩
      have hlt := hbelow next hnext
      have hint := toInt_toInt64 hlt
      obtain ⟨hone, hold⟩ := h.below next hnext
      rw [toNat_add_one (by omega)]
      refine ⟨by omega, fun r hr => ?_⟩
      rw [hrows] at hr
      rcases List.mem_append.1 hr with hr | hr
      · have := hold r hr; omega
      · rw [List.mem_singleton.1 hr]
        show next.toInt64.toInt < _
        omega
    | removed fileId hrunning =>
      intro next hnext
      obtain ⟨hone, hrows⟩ := h.below next hnext
      exact ⟨hone, fun r hr => hrows r (InodesTable.mem_delete.1 hr).1⟩

theorem run_append (s : InodeSession) (before after : List InodeAction) :
    s.run (before ++ after) = (s.run before).run after := List.foldl_append

theorem run_concat (s : InodeSession) (before : List InodeAction) (a : InodeAction) :
    s.run (before ++ [a]) = (s.run before).step a := List.foldl_append

theorem run_mapped {actions : List InodeAction} (hroot : ∀ a ∈ actions, KeepsRoot a)
    (hbelow : ∀ before, before <+: actions → (start.run before).Below) : (start.run actions).Mapped := by
  induction actions using List.reverseRecOn with
  | nil => exact start_mapped
  | append_singleton before a ih =>
    have hprefix : before <+: before ++ [a] := List.prefix_append before [a]
    have hbefore := ih (fun b hb => hroot b (List.mem_append_left _ hb)) fun bs hbs => hbelow bs (hbs.trans hprefix)
    rw [run_concat]
    exact hbefore.moves (hroot a List.mem_concat_self) (hbelow before hprefix) (step_moves _ a)

/-- A row stays until a removal of its file id. -/
theorem Moves.mem_rows {s s' : InodeSession} {a : InodeAction} {r : InodeRow} (hm : s.Moves a s')
    (ha : a ≠ .remove ⟨r.fileId⟩ none) (hr : r ∈ s.db.rows) : r ∈ s'.db.rows := by
  cases hm with
  | idle | stopped | started | found | skipped => exact hr
  | rooted max select insert db hno hrows => exact hrows ▸ List.mem_append_left _ hr
  | allocated fileId select insert next hnext db hno hrows => exact hrows ▸ List.mem_append_left _ hr
  | removed fileId hrunning =>
    exact InodesTable.mem_delete.2 ⟨hr, fun heq => ha (by rw [heq])⟩

theorem run_mem_rows {s : InodeSession} {actions : List InodeAction} {r : InodeRow}
    (ha : .remove ⟨r.fileId⟩ none ∉ actions) (hr : r ∈ s.db.rows) : r ∈ (s.run actions).db.rows := by
  induction actions generalizing s with
  | nil => exact hr
  | cons a actions ih =>
    rw [List.mem_cons, not_or] at ha
    exact ih ha.2 ((step_moves s a).mem_rows (Ne.symm ha.1) hr)

/-- The running manager. -/
def manager (s : InodeSession) : Option InodeManager := s.nextInode.map (⟨s.db, ·⟩)

theorem manager_eq_some {s : InodeSession} {m : InodeManager} :
    s.manager = some m ↔ s.nextInode = some m.nextInode ∧ s.db = m.db := by
  obtain ⟨db, next⟩ := m
  obtain ⟨db', _ | next', returned⟩ := s
  · exact ⟨fun h => (by cases h), fun h => (by cases h.1)⟩
  · unfold manager
    simp only [Option.map_some, Option.some.injEq, InodeManager.mk.injEq]
    exact and_comm

end InodeSession

namespace InodeManager

open InodeSession (rootRow)

theorem getInode_eq_some {m : InodeManager} {fileId : FileId} {inode : UInt64} :
    m.getInode none fileId = .ok (some inode) ↔ ⟨inode.toInt64, fileId.val⟩ ∈ m.db.rows := by
  unfold getInode getInodeByFileId
  simp only [Except.ok.injEq, Option.map_eq_some_iff, InodesTable.rowOf_eq_some]
  constructor
  · rintro ⟨⟨v, f⟩, ⟨hr, rfl⟩, rfl⟩
    rw [Int64.toInt64_toUInt64]
    exact hr
  · exact fun hr => ⟨_, ⟨hr, rfl⟩, UInt64.toUInt64_toInt64 inode⟩

theorem getFileId_eq_some {m : InodeManager} {fileId : FileId} {inode : UInt64} :
    m.getFileId none inode = .ok (some fileId) ↔ ⟨inode.toInt64, fileId.val⟩ ∈ m.db.rows := by
  unfold getFileId getFileIdByInode
  simp only [Except.map, Except.ok.injEq, Option.map_map, Option.map_eq_some_iff, InodesTable.rowAt_eq_some]
  constructor
  · rintro ⟨⟨v, f⟩, ⟨hr, rfl⟩, rfl⟩
    exact hr
  · exact fun hr => ⟨_, ⟨hr, rfl⟩, rfl⟩

/-- An answer of `get_or_allocate` is the stored number of the file id. -/
theorem mem_of_getOrAllocate {m : InodeManager} {select insert : Fault} {fileId : FileId} {inode : UInt64}
    (h : (m.getOrAllocate select insert fileId).1 = .ok inode) :
    ⟨inode.toInt64, fileId.val⟩ ∈ (m.getOrAllocate select insert fileId).2.db.rows := by
  unfold getOrAllocate at h ⊢
  have hcases := getOrInsertInode_cases select insert fileId.val (fun c : UInt64 => (c, c + 1)) m.db m.nextInode
  generalize getOrInsertInode select insert fileId.val (fun c : UInt64 => (c, c + 1)) m.db m.nextInode = g at h hcases
  cases hcases with
  | unread message | unwritten message | taken e hr => cases h
  | found r hr hid =>
    cases h
    obtain ⟨v, f⟩ := r
    cases hid
    rwa [Int64.toInt64_toUInt64]
  | inserted db hno hrows =>
    cases h
    exact hrows ▸ List.mem_concat_self

/-- With every stored number below the counter, the insert meets no stored number. -/
theorem getOrAllocate_ne_conflict {m : InodeManager} (hlt : m.nextInode.toNat < 2 ^ 63)
    (hrows : ∀ r ∈ m.db.rows, r.inode.toInt < m.nextInode.toNat) (select insert : Fault) (fileId : FileId)
    (message : Str) : (m.getOrAllocate select insert fileId).1 ≠ .error (.conflict message) := by
  intro h
  unfold getOrAllocate at h
  obtain ⟨-, -, -, r, hr, hinode⟩ := getOrInsertInode_conflict.1 ⟨message, h⟩
  have hint : r.inode.toInt = m.nextInode.toNat := by rw [hinode]; exact toInt_toInt64 hlt
  have := hrows r hr
  omega

end InodeManager

namespace InodeSession

/-- The number an allocation answered is stored until its file id is removed. -/
theorem stable (before after : List InodeAction) {fileId : FileId} {select insert : Fault} {m : InodeManager}
    {inode : UInt64} (hm : (start.run before).manager = some m)
    (hok : (m.getOrAllocate select insert fileId).1 = .ok inode) (hafter : .remove fileId none ∉ after) :
    ⟨inode.toInt64, fileId.val⟩ ∈ (start.run (before ++ .getOrAllocate fileId select insert :: after)).db.rows := by
  obtain ⟨hnext, hdb⟩ := manager_eq_some.1 hm
  rw [run_append]
  refine run_mem_rows (s := (start.run before).step (.getOrAllocate fileId select insert)) hafter ?_
  have hmem := InodeManager.mem_of_getOrAllocate hok
  obtain ⟨db, next⟩ := m
  simp only [step, hnext, hdb]
  generalize InodeManager.getOrAllocate select insert fileId ⟨db, next⟩ = g at hok hmem ⊢
  obtain ⟨r, m'⟩ := g
  cases hok
  exact hmem

/-- While the counter stays below 2^63 the map is one to one, holds the root, stays below the counter,
meets no conflict, and keeps every number until its file id is removed. -/
theorem map_invariant (actions : List InodeAction) (hroot : ∀ a ∈ actions, KeepsRoot a)
    (hbelow : ∀ before, before <+: actions → (start.run before).Below)
    (m : InodeManager) (hm : (start.run actions).manager = some m) :
    (m.getInode none ⟨rootFileId⟩ = .ok (some fuseRootInode) ∧
      m.getFileId none fuseRootInode = .ok (some ⟨rootFileId⟩)) ∧
    (∀ fileId inode, m.getInode none fileId = .ok (some inode) ↔ m.getFileId none inode = .ok (some fileId)) ∧
    (∀ r ∈ m.db.rows, r.inode.toUInt64 < m.nextInode) ∧
    (∀ select insert fileId message, (m.getOrAllocate select insert fileId).1 ≠ .error (.conflict message)) ∧
    ∀ before fileId select insert after m' inode,
      actions = before ++ .getOrAllocate fileId select insert :: after →
      (start.run before).manager = some m' → (m'.getOrAllocate select insert fileId).1 = .ok inode →
      .remove fileId none ∉ after → m.getInode none fileId = .ok (some inode) := by
  have h := run_mapped hroot hbelow
  have hlt := hbelow actions (List.prefix_refl _)
  obtain ⟨hnext, hdb⟩ := manager_eq_some.1 hm
  have hmem : rootRow ∈ m.db.rows := hdb ▸ h.running (by rw [hnext]; rfl)
  obtain ⟨hone, hrows⟩ := h.below _ hnext
  rw [hdb] at hrows
  refine ⟨⟨?_, ?_⟩, fun fileId inode => ?_, fun r hr => ?_, fun select insert fileId message => ?_, ?_⟩
  · exact InodeManager.getInode_eq_some.2 hmem
  · exact InodeManager.getFileId_eq_some.2 hmem
  · rw [InodeManager.getInode_eq_some, InodeManager.getFileId_eq_some]
  · have hpos := h.positive r (hdb ▸ hr)
    have hnat := toNat_toUInt64 (v := r.inode) (by omega)
    have := hrows r hr
    exact UInt64.lt_iff_toNat_lt.2 (by omega)
  · exact InodeManager.getOrAllocate_ne_conflict (hlt _ hnext) hrows select insert fileId message
  · rintro before fileId select insert after m' inode rfl hm' hok hafter
    exact InodeManager.getInode_eq_some.2 (hdb ▸ stable before after hm' hok hafter)

/-- Two files, one of them removed, and a second start. -/
def secondStart : List InodeAction :=
  [.restart none none none, .getOrAllocate ⟨['a']⟩ none none, .getOrAllocate ⟨['b']⟩ none none,
    .remove ⟨['a']⟩ none, .restart none none none]

/-- The file that is kept has its number. -/
theorem map_invariant_sample :
    ∃ m, (start.run secondStart).manager = some m ∧ m.nextInode = 4 ∧ m.getInode none ⟨['b']⟩ = .ok (some 3) := by
  have hm : (start.run secondStart).manager = some ⟨(start.run secondStart).db, 4⟩ :=
    manager_eq_some.2 ⟨by decide +kernel, rfl⟩
  have hbelow : ∀ before ∈ secondStart.inits, (start.run before).Below := by decide +kernel
  obtain ⟨-, -, -, -, hkept⟩ := map_invariant secondStart (by decide)
    (fun before hbefore => hbelow before ((List.mem_inits _ _).2 hbefore)) _ hm
  refine ⟨_, hm, rfl, ?_⟩
  refine hkept [.restart none none none, .getOrAllocate ⟨['a']⟩ none none] ⟨['b']⟩ none none
    [.remove ⟨['a']⟩ none, .restart none none none]
    ⟨(start.run [.restart none none none, .getOrAllocate ⟨['a']⟩ none none]).db, 3⟩ 3 rfl ?_ ?_ (by decide)
  · exact manager_eq_some.2 ⟨by decide +kernel, rfl⟩
  · decide +kernel

end InodeSession

end CloudSync
