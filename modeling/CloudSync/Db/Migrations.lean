/-
`Migrator`: migrations of the schema, each with the version it leads to, run in one transaction. A database that
was migrated in stages is the one migrated in one go, and a migration that fails leaves the database as it was. A
schema, and what a script does to it, are parameters.
-/
import CloudSync.Db.Files

namespace CloudSync

/-! ## The migrator -/

structure Migration where
  version : Int32
  description : Str
  sql : Str
deriving DecidableEq

structure Migrator where
  migrations : List Migration

/-- A database: its schema, and the `user_version` pragma. -/
structure VersionedDb (Schema : Type) where
  schema : Schema
  userVersion : Int32
deriving DecidableEq

/-- The failures of the statements of a migration that are not in its scripts. -/
structure MigrateFaults where
  current : Option SqliteError
  pending : Option SqliteError
  transaction : Option SqliteError
  setVersion : Int32 → Option SqliteError
  commit : Option SqliteError
  result : Option SqliteError

def MigrateFaults.none : MigrateFaults where
  current := Option.none
  pending := Option.none
  transaction := Option.none
  setVersion _ := Option.none
  commit := Option.none
  result := Option.none

/-- A new SQLite database. -/
def VersionedDb.created {Schema : Type} (schema : Schema) : VersionedDb Schema := ⟨schema, 0⟩

namespace Migrator

section

variable {Schema : Type} (exec : Str → Schema → Except SqliteError Unit × Schema)

def currentVersion (fault : Option SqliteError) (db : VersionedDb Schema) : Except DbError Int32 :=
  match fault with
  | some e => .error (.sqlite e)
  | none => .ok db.userVersion

def pendingMigrations (fault : Option SqliteError) (m : Migrator) (db : VersionedDb Schema) :
    Except DbError (List Migration) :=
  (currentVersion fault db).map fun current => m.migrations.filter fun m => m.version > current

/-- The loop of `migrate`. A script that fails may have done something. -/
def runMigrations (setVersion : Int32 → Option SqliteError) :
    List Migration → VersionedDb Schema → Except DbError Unit × VersionedDb Schema
  | [], db => (.ok (), db)
  | m :: ms, db => match exec m.sql db.schema with
    | (.error e, schema) => (.error (.sqlite e), { db with schema := schema })
    | (.ok _, schema) => match setVersion m.version with
      | some e => (.error (.sqlite e), { db with schema := schema })
      | none => runMigrations setVersion ms ⟨schema, m.version⟩

/-- A transaction: a failure in it, of its start or of its commit, rolls back to the database it started with. -/
def transaction (start commit : Option SqliteError)
    (body : VersionedDb Schema → Except DbError Unit × VersionedDb Schema) (db : VersionedDb Schema) :
    Except DbError Unit × VersionedDb Schema :=
  match start with
  | some e => (.error (.sqlite e), db)
  | none => match body db with
    | (.error e, _) => (.error e, db)
    | (.ok _, db') => match commit with
      | some e => (.error (.sqlite e), db)
      | none => (.ok (), db')

def migrate (faults : MigrateFaults) (m : Migrator) (db : VersionedDb Schema) :
    Except DbError Int32 × VersionedDb Schema :=
  match currentVersion faults.current db with
  | .error e => (.error e, db)
  | .ok current => match pendingMigrations faults.pending m db with
    | .error e => (.error e, db)
    | .ok pending =>
      if pending = [] then (.ok current, db)
      else match transaction faults.transaction faults.commit (runMigrations exec faults.setVersion pending) db with
        | (.error e, db) => (.error e, db)
        | (.ok _, db) => (currentVersion faults.result db, db)

/-- Scripts one after the other: the schema they lead to, if none of them fails. -/
def runScripts (scripts : List Str) (schema : Schema) : Option Schema :=
  scripts.foldlM (fun schema sql => match exec sql schema with
    | (.ok _, schema) => some schema
    | (.error _, _) => none) schema

/-- A database the migrations have led to from the empty schema, with prefixes of them and any failures. -/
inductive Reached (empty : Schema) (migrations : List Migration) : VersionedDb Schema → Prop
  | created : Reached empty migrations (.created empty)
  | migrated {db : VersionedDb Schema} (h : Reached empty migrations db) (faults : MigrateFaults)
      (stage : List Migration) (hstage : stage <+: migrations) :
      Reached empty migrations (migrate exec faults ⟨stage⟩ db).2

/-- A script fails after the ones before it. -/
def ScriptFails (migrations : List Migration) (schema : Schema) : Prop :=
  ∃ before m after schema', migrations = before ++ m :: after ∧
    runScripts exec (before.map Migration.sql) schema = some schema' ∧ ∃ e, (exec m.sql schema').1 = .error e

end

/-- The version the last of the migrations leads to. -/
def lastVersion (migrations : List Migration) : Int32 := (migrations.getLast?.map Migration.version).getD 0

variable {Schema : Type} {exec : Str → Schema → Except SqliteError Unit × Schema}

/-! ## The loop and the transaction -/

theorem runScripts_append (before after : List Str) (schema : Schema) :
    runScripts exec (before ++ after) schema = (runScripts exec before schema).bind (runScripts exec after) := by
  unfold runScripts
  rw [List.foldlM_append]
  rfl

theorem lastVersion_concat (migrations : List Migration) (m : Migration) :
    lastVersion (migrations ++ [m]) = m.version := by
  unfold lastVersion
  rw [List.getLast?_concat]
  rfl

theorem lastVersion_append (before : List Migration) {after : List Migration} (h : after ≠ []) :
    lastVersion (before ++ after) = lastVersion after := by
  unfold lastVersion
  rw [List.getLast?_append_of_ne_nil _ h]

/-- A loop that ends has run every script, and set the last version. -/
theorem runMigrations_ok {setVersion : Int32 → Option SqliteError} {migrations : List Migration}
    {db db' : VersionedDb Schema} (h : runMigrations exec setVersion migrations db = (.ok (), db')) :
    runScripts exec (migrations.map Migration.sql) db.schema = some db'.schema ∧
      (migrations ≠ [] → db'.userVersion = lastVersion migrations) := by
  induction migrations generalizing db with
  | nil =>
    cases h
    exact ⟨rfl, fun hne => absurd rfl hne⟩
  | cons m ms ih =>
    unfold runMigrations at h
    split at h
    · cases h
    · rename_i schema hexec
      split at h
      · cases h
      · obtain ⟨hscripts, hversion⟩ := ih h
        refine ⟨?_, fun _ => ?_⟩
        · unfold runScripts at hscripts ⊢
          rw [List.map_cons, List.foldlM_cons, hexec]
          exact hscripts
        · by_cases hms : ms = []
          · subst hms
            cases h
            rfl
          · exact (hversion hms).trans (lastVersion_append [m] hms).symm

/-- Without other failures the loop ends, or a script fails. -/
theorem runMigrations_none (exec : Str → Schema → Except SqliteError Unit × Schema)
    (migrations : List Migration) (db : VersionedDb Schema) :
    (∃ db', runMigrations exec MigrateFaults.none.setVersion migrations db = (.ok (), db')) ∨
      ((∃ e db', runMigrations exec MigrateFaults.none.setVersion migrations db = (.error e, db')) ∧
        ScriptFails exec migrations db.schema) := by
  induction migrations generalizing db with
  | nil => exact .inl ⟨db, rfl⟩
  | cons m ms ih =>
    unfold runMigrations
    cases hexec : exec m.sql db.schema with
    | mk r schema =>
      cases r with
      | error e => exact .inr ⟨⟨_, _, rfl⟩, [], m, ms, db.schema, rfl, rfl, e, by rw [hexec]⟩
      | ok =>
        rcases ih ⟨schema, m.version⟩ with hok | ⟨herror, before, m', after, schema', rfl, hbefore, hfails⟩
        · exact .inl hok
        · refine .inr ⟨herror, m :: before, m', after, schema', rfl, ?_, hfails⟩
          unfold runScripts at hbefore ⊢
          rw [List.map_cons, List.foldlM_cons, hexec]
          exact hbefore

/-- What a migration can do to the database: nothing, or run all pending scripts and set the last version. -/
theorem migrate_db (exec : Str → Schema → Except SqliteError Unit × Schema) (faults : MigrateFaults)
    (migrations : List Migration) (db : VersionedDb Schema) :
    (migrate exec faults ⟨migrations⟩ db).2 = db ∨
      migrations.filter (fun m => m.version > db.userVersion) ≠ [] ∧
        runScripts exec ((migrations.filter fun m => m.version > db.userVersion).map Migration.sql) db.schema =
          some (migrate exec faults ⟨migrations⟩ db).2.schema ∧
        (migrate exec faults ⟨migrations⟩ db).2.userVersion =
          lastVersion (migrations.filter fun m => m.version > db.userVersion) := by
  unfold migrate pendingMigrations transaction currentVersion
  cases faults.current with
  | some e => exact .inl rfl
  | none =>
    cases faults.pending with
    | some e => exact .inl rfl
    | none =>
      simp only [Except.map]
      split
      · exact .inl rfl
      · rename_i hpending
        cases faults.transaction with
        | some e => exact .inl rfl
        | none =>
          simp only
          cases hrun : runMigrations exec faults.setVersion (migrations.filter fun m => m.version > db.userVersion)
              db with
          | mk r db' =>
            cases r with
            | error e => exact .inl rfl
            | ok =>
              cases faults.commit with
              | some e => exact .inl rfl
              | none =>
                obtain ⟨hscripts, hversion⟩ := runMigrations_ok hrun
                exact .inr ⟨hpending, hscripts, hversion hpending⟩

/-- Without other failures: nothing is pending, every pending script runs, or one of them fails. -/
theorem migrate_none (exec : Str → Schema → Except SqliteError Unit × Schema)
    (migrations : List Migration) (db : VersionedDb Schema) :
    let pending := migrations.filter fun m => m.version > db.userVersion
    pending = [] ∧ migrate exec .none ⟨migrations⟩ db = (.ok db.userVersion, db) ∨
      (∃ schema, pending ≠ [] ∧ runScripts exec (pending.map Migration.sql) db.schema = some schema ∧
        migrate exec .none ⟨migrations⟩ db = (.ok (lastVersion pending), ⟨schema, lastVersion pending⟩)) ∨
      (∃ e, migrate exec .none ⟨migrations⟩ db = (.error e, db)) ∧ ScriptFails exec pending db.schema := by
  intro pending
  have hmigrate : migrate exec .none ⟨migrations⟩ db = if pending = [] then (.ok db.userVersion, db) else
      match runMigrations exec MigrateFaults.none.setVersion pending db with
      | (.error e, _) => (.error e, db)
      | (.ok _, db') => (.ok db'.userVersion, db') := by
    unfold migrate transaction
    simp only [MigrateFaults.none, currentVersion, pendingMigrations, Except.map]
    split
    · rfl
    · cases runMigrations exec (fun _ => none) (migrations.filter fun m => m.version > db.userVersion) db with
      | mk r db' => cases r <;> rfl
  by_cases hpending : pending = []
  · exact .inl ⟨hpending, hmigrate.trans (if_pos hpending)⟩
  rw [if_neg hpending] at hmigrate
  rcases runMigrations_none exec pending db with ⟨db', hrun⟩ | ⟨⟨e, db', hrun⟩, hfails⟩
  · obtain ⟨hscripts, hversion⟩ := runMigrations_ok hrun
    refine .inr (.inl ⟨db'.schema, hpending, hscripts, ?_⟩)
    rw [hmigrate, hrun, ← hversion hpending]
  · refine .inr (.inr ⟨⟨e, ?_⟩, hfails⟩)
    rw [hmigrate, hrun]

theorem ScriptFails.runScripts_eq {migrations : List Migration} {schema : Schema}
    (h : ScriptFails exec migrations schema) : runScripts exec (migrations.map Migration.sql) schema = none := by
  obtain ⟨before, m, after, schema', rfl, hbefore, e, he⟩ := h
  rw [List.map_append, List.map_cons, runScripts_append, hbefore, Option.bind_some]
  unfold runScripts
  rw [List.foldlM_cons]
  cases hexec : exec m.sql schema' with
  | mk r schema =>
    rw [hexec] at he
    cases he
    rfl

/-! ## Stages -/

/-- The versions are positive and increase. -/
def Ordered (migrations : List Migration) : Prop :=
  (∀ m ∈ migrations, 0 < m.version) ∧ migrations.Pairwise fun m m' => m.version < m'.version

instance (migrations : List Migration) : Decidable (Ordered migrations) := by unfold Ordered; infer_instance

/-- The migrations that are done have led to the database. -/
structure Staged (exec : Str → Schema → Except SqliteError Unit × Schema) (empty : Schema) (done : List Migration)
    (db : VersionedDb Schema) : Prop where
  schema : runScripts exec (done.map Migration.sql) empty = some db.schema
  userVersion : db.userVersion = lastVersion done

variable {empty : Schema} {done rest stage migrations : List Migration} {db : VersionedDb Schema}

theorem le_lastVersion (h : Ordered (done ++ rest)) : ∀ m ∈ done, m.version ≤ lastVersion done := by
  rcases List.eq_nil_or_concat' done with rfl | ⟨front, last, rfl⟩
  · exact List.forall_mem_nil _
  · intro m hm
    rw [lastVersion_concat]
    rcases List.mem_append.1 hm with hm | hm
    · have hfront := (List.pairwise_append.1 (List.pairwise_append.1 h.2).1).2.2
      exact Int32.le_of_lt (hfront m hm last (List.mem_singleton_self last))
    · rw [List.mem_singleton.1 hm]
      exact Int32.le_refl _

theorem lastVersion_lt (h : Ordered (done ++ rest)) : ∀ m ∈ rest, lastVersion done < m.version := by
  intro m hm
  rcases List.eq_nil_or_concat' done with rfl | ⟨front, last, rfl⟩
  · exact h.1 m hm
  · rw [lastVersion_concat]
    exact (List.pairwise_append.1 h.2).2.2 last (List.mem_append_right _ (List.mem_singleton_self last)) m hm

/-- What is pending in a stage are the migrations after those that are done. -/
theorem pending_eq (h : Ordered (done ++ rest)) (hstage : stage <+: done ++ rest) :
    stage.filter (fun m => m.version > lastVersion done) = stage.drop done.length := by
  have hdone : ∀ ms : List Migration, ms ⊆ done → ms.filter (fun m => m.version > lastVersion done) = [] := by
    intro ms hms
    refine List.filter_eq_nil_iff.2 fun m hm => ?_
    have hle := le_lastVersion h m (hms hm)
    simp only [gt_iff_lt, decide_eq_true_eq, Int32.not_lt]
    exact hle
  rcases List.prefix_or_prefix_of_prefix hstage (List.prefix_append done rest) with hbefore | ⟨new, rfl⟩
  · rw [hdone stage hbefore.subset, List.drop_eq_nil_of_le hbefore.length_le]
  · rw [List.filter_append, hdone done (List.Subset.refl _), List.nil_append, List.drop_left]
    have hnew : new <+: rest := (List.prefix_append_right_inj done).1 hstage
    refine List.filter_eq_self.2 fun m hm => ?_
    exact decide_eq_true (lastVersion_lt h m (hnew.subset hm))

/-- Every database that was reached is that of a prefix of the migrations. -/
theorem Reached.staged (h : Reached exec empty migrations db) (hordered : Ordered migrations) :
    ∃ done rest, migrations = done ++ rest ∧ Staged exec empty done db := by
  induction h with
  | created => exact ⟨[], migrations, rfl, rfl, rfl⟩
  | migrated h faults stage hstage ih =>
    obtain ⟨done, rest, heq, hdb⟩ := ih
    rcases migrate_db exec faults stage _ with hsame | ⟨hpending, hscripts, hversion⟩
    · rw [hsame]
      exact ⟨done, rest, heq, hdb⟩
    rw [heq] at hordered hstage
    rw [hdb.userVersion, pending_eq hordered hstage] at hpending hscripts hversion
    -- something is pending, so the stage goes beyond what is done
    obtain ⟨new, rfl⟩ : done <+: stage := by
      refine (List.prefix_or_prefix_of_prefix hstage (List.prefix_append done rest)).resolve_left fun hbefore => ?_
      exact hpending (List.drop_eq_nil_of_le hbefore.length_le)
    rw [List.drop_left] at hpending hscripts hversion
    obtain ⟨after, hafter⟩ := hstage
    refine ⟨done ++ new, after, heq.trans hafter.symm, ?_, ?_⟩
    · rw [List.map_append, runScripts_append, hdb.schema]
      exact hscripts
    · rw [hversion, lastVersion_append done hpending]

/-- A database of a prefix is migrated by the scripts after it, or one of these fails. -/
theorem migrate_staged (hordered : Ordered (done ++ rest)) (hdb : Staged exec empty done db) :
    (∃ schema, runScripts exec (rest.map Migration.sql) db.schema = some schema ∧
      migrate exec .none ⟨done ++ rest⟩ db = (.ok (lastVersion (done ++ rest)), ⟨schema, lastVersion (done ++ rest)⟩)) ∨
    (∃ e, migrate exec .none ⟨done ++ rest⟩ db = (.error e, db)) ∧ ScriptFails exec rest db.schema := by
  have hpending := pending_eq hordered (List.prefix_refl _)
  rw [List.drop_left, ← hdb.userVersion] at hpending
  have hcases := migrate_none exec (done ++ rest) db
  simp only [hpending] at hcases
  rcases hcases with ⟨rfl, hmigrate⟩ | ⟨schema, hne, hscripts, hmigrate⟩ | hfails
  · refine .inl ⟨db.schema, rfl, hmigrate.trans ?_⟩
    rw [List.append_nil, ← hdb.userVersion]
  · refine .inl ⟨schema, hscripts, hmigrate.trans ?_⟩
    rw [lastVersion_append done hne]
  · exact .inr hfails

theorem created_staged : Staged exec empty [] (.created empty) := ⟨rfl, rfl⟩

/-- For migrations with increasing positive versions, and every database earlier migrations by prefixes of them
have led to: `migrate` runs the scripts above its version in their order and sets the last version, the database
is then the one migrated in one go, nothing is pending, and another `migrate` changes nothing; or a script fails,
and the database is as it was. -/
theorem migrate_all_or_nothing (exec : Str → Schema → Except SqliteError Unit × Schema) (empty : Schema)
    (migrations : List Migration) (hordered : Ordered migrations) (db : VersionedDb Schema)
    (hdb : Reached exec empty migrations db) :
    (∃ db', migrate exec .none ⟨migrations⟩ db = (.ok (lastVersion migrations), db') ∧
      runScripts exec ((migrations.filter fun m => m.version > db.userVersion).map Migration.sql) db.schema =
        some db'.schema ∧
      db'.userVersion = lastVersion migrations ∧
      migrate exec .none ⟨migrations⟩ (.created empty) = (.ok (lastVersion migrations), db') ∧
      pendingMigrations none ⟨migrations⟩ db' = .ok [] ∧
      migrate exec .none ⟨migrations⟩ db' = (.ok (lastVersion migrations), db')) ∨
    (∃ e, migrate exec .none ⟨migrations⟩ db = (.error e, db)) ∧
      ScriptFails exec (migrations.filter fun m => m.version > db.userVersion) db.schema := by
  obtain ⟨done, rest, rfl, hstaged⟩ := hdb.staged hordered
  have hpending : (done ++ rest).filter (fun m => m.version > db.userVersion) = rest := by
    rw [hstaged.userVersion, pending_eq hordered (List.prefix_refl _), List.drop_left]
  rw [hpending]
  rcases migrate_staged hordered hstaged with ⟨schema, hscripts, hmigrate⟩ | hfails
  swap
  · exact .inr hfails
  have hall : runScripts exec ((done ++ rest).map Migration.sql) empty = some schema := by
    rw [List.map_append, runScripts_append, hstaged.schema]
    exact hscripts
  have hdone : Staged exec empty (done ++ rest) ⟨schema, lastVersion (done ++ rest)⟩ := ⟨hall, rfl⟩
  have hordered' : Ordered ((done ++ rest) ++ []) := by
    rw [List.append_nil]
    exact hordered
  refine .inl ⟨_, hmigrate, hscripts, rfl, ?_, ?_, ?_⟩
  · have hcreated : Ordered ([] ++ (done ++ rest)) := hordered
    rcases migrate_staged hcreated created_staged with ⟨schema', hscripts', hmigrate'⟩ | hfails
    · cases hall.symm.trans hscripts'
      exact hmigrate'
    · exact absurd (hall.symm.trans hfails.2.runScripts_eq) (Option.some_ne_none _)
  · have hnone := pending_eq hordered' (List.prefix_append _ [])
    rw [List.drop_length] at hnone
    exact congrArg Except.ok hnone
  · rcases migrate_staged hordered' hdone with ⟨schema', hscripts', hmigrate'⟩ | ⟨-, hfails⟩
    · cases hscripts'
      rwa [List.append_nil] at hmigrate'
    · cases hfails.runScripts_eq

/-- A schema of tables, by the statements that created them; a table cannot be created twice. -/
def createTable (sql : Str) (tables : List Str) : Except SqliteError Unit × List Str :=
  if sql ∈ tables then (.error (.failure "table already exists".toList), tables) else (.ok (), sql :: tables)

def sampleMigrations : List Migration :=
  [⟨1, "Create accounts table".toList, "CREATE TABLE accounts (id INTEGER PRIMARY KEY)".toList⟩,
    ⟨2, "Create files table".toList, "CREATE TABLE files (id INTEGER PRIMARY KEY)".toList⟩]

/-- A release with the first migration, and then one with both. -/
theorem migrate_all_or_nothing_sample :
    ∃ db', migrate createTable .none ⟨sampleMigrations⟩
        (migrate createTable .none ⟨sampleMigrations.take 1⟩ (.created [])).2 = (.ok 2, db') ∧
      migrate createTable .none ⟨sampleMigrations⟩ (.created []) = (.ok 2, db') := by
  have hreached : Reached createTable [] sampleMigrations
      (migrate createTable .none ⟨sampleMigrations.take 1⟩ (.created [])).2 :=
    Reached.created.migrated .none _ (List.take_prefix 1 sampleMigrations)
  rcases migrate_all_or_nothing createTable [] sampleMigrations (by decide +kernel) _ hreached with
    ⟨db', hmigrate, -, -, hgo, -⟩ | ⟨⟨e, hfails⟩, -⟩
  · exact ⟨db', hmigrate, hgo⟩
  · have hok : ∃ version, (migrate createTable .none ⟨sampleMigrations⟩
        (migrate createTable .none ⟨sampleMigrations.take 1⟩ (.created [])).2).1 = .ok version :=
      ⟨2, by decide +kernel⟩
    obtain ⟨version, hok⟩ := hok
    rw [hfails] at hok
    cases hok

end Migrator

end CloudSync
