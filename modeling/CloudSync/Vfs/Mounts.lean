/-
Several mounts over one database. Every mount has an inode manager with a counter of its own, restored when it
starts, and all of them share the table. A counter that another mount has run past meets a stored number: the
call fails then, and the table keeps every number given out.
-/
import CloudSync.Vfs.Inodes

namespace CloudSync

/-! ## The two statements of a start -/

namespace InodeManager

/-- The counter `new` starts with. -/
def restore (max : Fault) (db : InodesTable) : Except DbError UInt64 :=
  (getMaxInode max db).map fun maxInode => if maxInode = 0 then fuseRootInode + 1 else maxInode + 1

def ensureRoot (select insert : Fault) (db : InodesTable) : Except DbError UInt64 × InodesTable :=
  let (r, db, _) := getOrInsertInode select insert rootFileId (fun () => (fuseRootInode, ())) db ()
  (r, db)

/-- A start whose statements no other mount comes between. -/
theorem new_eq (max select insert : Fault) (db : InodesTable) : new max select insert db =
    match restore max db with
    | .error e => (.error e, db)
    | .ok next => match ensureRoot select insert db with
      | (.error e, db) => (.error e, db)
      | (.ok _, db) => (.ok ⟨db, next⟩, db) := by
  unfold new restore ensureRoot
  cases getMaxInode max db with
  | error e => rfl
  | ok maxInode =>
    simp only [Except.map]
    generalize getOrInsertInode select insert rootFileId (fun () => (fuseRootInode, ())) db () = g
    obtain ⟨_ | _, db, _⟩ := g <;> rfl

end InodeManager

/-! ## Runs of several mounts -/

/-- The manager of a mount: between the two statements of its start, running, or not started. -/
inductive Mount
  | starting (nextInode : UInt64)
  | running (nextInode : UInt64)
  | stopped
deriving DecidableEq

/-- A call under the lock of the database, with the failures of its statements. -/
inductive MountEvent
  | restore (max : Fault)
  | ensureRoot (mount : Nat) (select insert : Fault)
  | getOrAllocate (mount : Nat) (fileId : FileId) (select insert : Fault)
deriving DecidableEq

/-- The table, the managers over it, and the results of their calls of `get_or_allocate`. -/
structure Mounts where
  db : InodesTable
  mounts : List Mount
  results : List (FileId × Except DbError UInt64)

namespace Mounts

/-- A database before the first mount of the process. -/
def start (db : InodesTable) : Mounts := ⟨db, [], []⟩

def step (s : Mounts) : MountEvent → Mounts
  | .restore max => match InodeManager.restore max s.db with
    | .ok next => { s with mounts := s.mounts ++ [.starting next] }
    | .error _ => { s with mounts := s.mounts ++ [.stopped] }
  | .ensureRoot mount select insert => match s.mounts[mount]? with
    | some (.starting next) => match InodeManager.ensureRoot select insert s.db with
      | (.ok _, db) => { s with db := db, mounts := s.mounts.set mount (.running next) }
      | (.error _, db) => { s with db := db, mounts := s.mounts.set mount .stopped }
    | _ => s
  | .getOrAllocate mount fileId select insert => match s.mounts[mount]? with
    | some (.running next) => match InodeManager.getOrAllocate select insert fileId ⟨s.db, next⟩ with
      | (r, m) => ⟨m.db, s.mounts.set mount (.running m.nextInode), s.results ++ [(fileId, r)]⟩
    | _ => s

def run (s : Mounts) (actions : List MountEvent) : Mounts := actions.foldl step s

theorem run_concat (s : Mounts) (before : List MountEvent) (a : MountEvent) :
    s.run (before ++ [a]) = (s.run before).step a := List.foldl_append

/-- A call that gives a file a new number finds no row with the number of its counter. -/
def Fresh (s : Mounts) : MountEvent → Prop
  | .getOrAllocate mount fileId none none => ∀ next, s.mounts[mount]? = some (.running next) →
    (∀ r ∈ s.db.rows, r.fileId ≠ fileId.val) → ∀ r ∈ s.db.rows, r.inode ≠ next.toInt64
  | _ => True

/-- Some call has failed with a conflict. -/
def Conflicted (s : Mounts) : Prop := ∃ fileId message, (fileId, .error (.conflict message)) ∈ s.results

/-! ## The conflicts of a run -/

variable {s : Mounts} {db : InodesTable} {actions : List MountEvent}

/-- What an action can do: a call of a running manager, or something that returns no number. -/
inductive Moves (s : Mounts) : MountEvent → Mounts → Prop
  | quiet {a : MountEvent} (db : InodesTable) (mounts : List Mount) (hrows : s.db.rows ⊆ db.rows) (hfresh : s.Fresh a) :
      Moves s a ⟨db, mounts, s.results⟩
  | called (mount : Nat) (fileId : FileId) (select insert : Fault) (next : UInt64)
      (hmount : s.mounts[mount]? = some (.running next)) (r : Except DbError UInt64) (m : InodeManager)
      (hcall : InodeManager.getOrAllocate select insert fileId ⟨s.db, next⟩ = (r, m)) :
      Moves s (.getOrAllocate mount fileId select insert)
        ⟨m.db, s.mounts.set mount (.running m.nextInode), s.results ++ [(fileId, r)]⟩

theorem fresh_of_not_running {mount : Nat} {fileId : FileId} {select insert : Fault}
    (h : ∀ next, s.mounts[mount]? ≠ some (.running next)) : s.Fresh (.getOrAllocate mount fileId select insert) := by
  cases select with
  | some message => trivial
  | none =>
    cases insert with
    | some message => trivial
    | none => exact fun next hnext => absurd hnext (h next)

theorem ensureRoot_rows (select insert : Fault) (db : InodesTable) :
    db.rows ⊆ (InodeManager.ensureRoot select insert db).2.rows := by
  have hcases := getOrInsertInode_cases select insert rootFileId (fun () => (fuseRootInode, ())) db ()
  exact hcases.rows_subset

theorem step_moves (s : Mounts) (a : MountEvent) : s.Moves a (s.step a) := by
  cases a with
  | restore max =>
    simp only [step]
    split
    · exact .quiet _ _ (List.Subset.refl _) trivial
    · exact .quiet _ _ (List.Subset.refl _) trivial
  | ensureRoot mount select insert =>
    have hrows := ensureRoot_rows select insert s.db
    simp only [step]
    split
    · split
      · rename_i heq
        rw [heq] at hrows
        exact .quiet _ _ hrows trivial
      · rename_i heq
        rw [heq] at hrows
        exact .quiet _ _ hrows trivial
    · exact .quiet _ _ (List.Subset.refl _) trivial
  | getOrAllocate mount fileId select insert =>
    simp only [step]
    split
    · rename_i next hmount
      exact .called mount fileId select insert next hmount _ _ rfl
    · rename_i hmount
      exact .quiet _ _ (List.Subset.refl _) (fresh_of_not_running hmount)

/-- The calls that take a number which is not fresh, and no others, fail with a conflict. -/
theorem not_fresh_iff {mount : Nat} {fileId : FileId} {select insert : Fault} {next : UInt64}
    (hmount : s.mounts[mount]? = some (.running next)) :
    ¬ s.Fresh (.getOrAllocate mount fileId select insert) ↔ ∃ message,
      (InodeManager.getOrAllocate select insert fileId ⟨s.db, next⟩).1 = .error (.conflict message) := by
  unfold InodeManager.getOrAllocate
  refine Iff.trans ?_ getOrInsertInode_conflict.symm
  cases select with
  | some message => exact iff_of_false (not_not_intro trivial) fun h => by cases h.1
  | none =>
    cases insert with
    | some message => exact iff_of_false (not_not_intro trivial) fun h => by cases h.2.1
    | none =>
      simp only [Fresh, hmount, Option.some.injEq, Mount.running.injEq, forall_eq', true_and]
      push Not
      exact Iff.rfl

theorem Moves.conflicted {s' : Mounts} {a : MountEvent} (hm : s.Moves a s') :
    s'.Conflicted ↔ s.Conflicted ∨ ¬ s.Fresh a := by
  cases hm with
  | quiet db mounts hrows hfresh => exact (or_iff_left (not_not_intro hfresh)).symm
  | called mount fileId select insert next hmount r m hcall =>
    rw [not_fresh_iff hmount, hcall]
    simp only [Conflicted, List.mem_append, List.mem_singleton, Prod.mk.injEq]
    constructor
    · rintro ⟨f, message, hold | ⟨-, hnew⟩⟩
      · exact .inl ⟨f, message, hold⟩
      · exact .inr ⟨message, hnew.symm⟩
    · rintro (⟨f, message, hold⟩ | ⟨message, hnew⟩)
      · exact ⟨f, message, .inl hold⟩
      · exact ⟨fileId, message, .inr ⟨rfl, hnew.symm⟩⟩

/-- Over a run: no call has failed with a conflict exactly when every number taken from a counter was fresh. -/
theorem run_conflicted (s : Mounts) (actions : List MountEvent) :
    (s.run actions).Conflicted ↔ s.Conflicted ∨ ∃ before a, before ++ [a] <+: actions ∧ ¬ (s.run before).Fresh a := by
  induction actions using List.reverseRecOn with
  | nil => simp [run]
  | append_singleton actions a ih =>
    rw [run_concat, (step_moves _ a).conflicted, ih, or_assoc]
    refine or_congr_right ?_
    constructor
    · rintro (⟨before, b, hpre, hb⟩ | ha)
      · exact ⟨before, b, hpre.trans (List.prefix_append _ _), hb⟩
      · exact ⟨actions, a, List.prefix_refl _, ha⟩
    · rintro ⟨before, b, hpre, hb⟩
      rcases List.prefix_concat_iff.1 hpre with heq | hpre
      · obtain ⟨rfl, hlast⟩ := List.append_inj' heq rfl
        obtain rfl := List.singleton_inj.1 hlast
        exact .inr hb
      · exact .inl ⟨before, b, hpre, hb⟩

/-- The numbers given out are stored for their files. -/
def Stored (s : Mounts) : Prop := ∀ fileId inode,
  (fileId, .ok inode) ∈ s.results → ⟨inode.toInt64, fileId.val⟩ ∈ s.db.rows

theorem Stored.moves {s' : Mounts} {a : MountEvent} (h : s.Stored) (hm : s.Moves a s') : s'.Stored := by
  intro fileId inode hmem
  cases hm with
  | quiet db mounts hrows hfresh => exact hrows (h fileId inode hmem)
  | called mount fileId' select insert next hmount r m hcall =>
    rcases List.mem_append.1 hmem with hmem | hmem
    · have hrows : s.db.rows ⊆ (InodeManager.getOrAllocate select insert fileId' ⟨s.db, next⟩).2.db.rows :=
        (getOrInsertInode_cases select insert fileId'.val (fun c : UInt64 => (c, c + 1)) s.db next).rows_subset
      rw [hcall] at hrows
      exact hrows (h fileId inode hmem)
    · obtain ⟨rfl, rfl⟩ := Prod.mk.inj (List.mem_singleton.1 hmem)
      have hstored := InodeManager.mem_of_getOrAllocate (congrArg Prod.fst hcall)
      rwa [hcall] at hstored

theorem run_stored (h : s.Stored) (actions : List MountEvent) : (s.run actions).Stored := by
  induction actions generalizing s with
  | nil => exact h
  | cons a actions ih => exact ih (h.moves (step_moves s a))

theorem start_stored (db : InodesTable) : (start db).Stored := fun _ _ h => by cases h

/-- For any number of mounts over any database, in every order of their calls: no call fails with a conflict
exactly when every file that has no number yet is looked up by a mount whose counter is not stored. Whatever the
order, every number a call returns is stored for its file, and two files have different numbers. -/
theorem conflict_free_iff (db : InodesTable) (actions : List MountEvent) :
    ((∀ fileId message, (fileId, .error (.conflict message)) ∉ ((start db).run actions).results) ↔
      ∀ before a, before ++ [a] <+: actions → ((start db).run before).Fresh a) ∧
    (∀ fileId inode, (fileId, .ok inode) ∈ ((start db).run actions).results →
      getInodeByFileId none fileId.val ((start db).run actions).db = .ok (some inode)) ∧
    ∀ fileId fileId' inode, (fileId, .ok inode) ∈ ((start db).run actions).results →
      (fileId', .ok inode) ∈ ((start db).run actions).results → fileId = fileId' := by
  have hstored := run_stored (start_stored db) actions
  refine ⟨?_, fun fileId inode h => ?_, fun fileId fileId' inode h h' => ?_⟩
  · have hrun := not_congr (run_conflicted (start db) actions)
    have hstart : ¬ (start db).Conflicted := by
      rintro ⟨_, _, h⟩
      cases h
    unfold Conflicted at hrun hstart
    push Not at hrun hstart
    rw [hrun]
    exact and_iff_right hstart
  · exact InodeManager.getInode_eq_some (m := ⟨_, 0⟩).2 (hstored fileId inode h)
  · have heq := List.inj_on_of_nodup_map ((start db).run actions).db.inodesNodup (hstored _ _ h) (hstored _ _ h') rfl
    exact congrArg FileId.mk (InodeRow.mk.inj heq).2

/-- Two mounts that start before either gives out a number. -/
def twoMounts : List MountEvent :=
  [.restore none, .ensureRoot 0 none none, .restore none, .ensureRoot 1 none none,
    .getOrAllocate 0 ⟨['a']⟩ none none, .getOrAllocate 1 ⟨['b']⟩ none none]

/-- Both counters are at 2, and the second call finds 2 taken. -/
theorem second_mount_conflicts :
    ((start InodesTable.empty).run twoMounts).results =
      [(⟨['a']⟩, .ok 2),
        (⟨['b']⟩, .error (.conflict "Inode mapping already exists for inode 2 or file_id b".toList))] := by
  decide +kernel

end Mounts

end CloudSync
