/-
`MetadataSyncer`: full and incremental metadata sync as programs over three effects, listing a
folder, fetching a page of changes and running a section of database calls under `with_conn`. The
handler is the rest of the world: the provider, which other clients may change before every step,
the clock, and faults of the network and the database at any step.
-/
import CloudSync.Lib.Prog
import CloudSync.Lib.KeyedLog
import CloudSync.Db.Database

namespace CloudSync

open Prog (perform exec Triple)

/-! ## The syncer -/

/-- The error results: a provider error under its context, or how a database section ended.
`outOfFuel` stands for a change feed that always has more pages. -/
inductive SyncError
  | provider (context : Str) (e : CloudError)
  | db (a : Abort)
  | outOfFuel
deriving DecidableEq

inductive SyncOp : Type → Type 1
  | listFolder (path : CloudPath) : SyncOp (Except CloudError (List CloudItem))
  | getChanges (cursor : Option Cursor) : SyncOp (Except CloudError ChangeList)
  | withConn {β : Type} (f : DbM β) : SyncOp (Except Abort β)

abbrev SyncM (α : Type) := ExceptT SyncError (Prog SyncOp) α

/-- A provider call: `.await.context(context)?` -/
def call {α : Type} (context : String) (o : SyncOp (Except CloudError α)) : SyncM α := do
  match ← ExceptT.lift (perform o) with
  | .ok a => pure a
  | .error e => throw (.provider context.toList e)

/-- `db.with_conn(f)?`: the section runs under the connection's lock. -/
def withConn {β : Type} (f : DbM β) : SyncM β := do
  match ← ExceptT.lift (perform (.withConn f)) with
  | .ok b => pure b
  | .error e => throw (.db e)

def cloudItemToDbFile (now : DateTime) (accountId : AccountId) (item : CloudItem) : File :=
  let file := File.new now accountId item.id item.path item.name item.size item.contentHash item.isFolder
    item.modified
  { file with state := .cloudOnly }

/-- The section of `upsert_cloud_item`. -/
def upsertSection (accountId : AccountId) (item : CloudItem) : DbM Unit := do
  let existing ← getFileByProviderId accountId item.id
  match existing with
  | some dbFile =>
    let _ ← updateFile { dbFile with
      name := item.name
      path := item.path
      size := item.size
      contentHash := item.contentHash
      isFolder := item.isFolder
      modifiedAt := item.modified }
    pure ()
  | none =>
    let now ← DbM.now
    let _ ← createFile (cloudItemToDbFile now accountId item)
    pure ()

/-- The section of `apply_change` for a deleted file. -/
def deleteSection (accountId : AccountId) (fileId : FileId) : DbM Unit := do
  let existing ← getFileByProviderId accountId fileId
  match existing with
  | some file =>
    let _ ← deleteFile file.id
    pure ()
  | none => pure ()

def upsertCloudItem (accountId : AccountId) (item : CloudItem) : SyncM Unit :=
  withConn (upsertSection accountId item)

def applyChange (accountId : AccountId) (change : Change) : SyncM Unit :=
  if change.deleted then withConn (deleteSection accountId change.fileId)
  else match change.item with
    | some item => upsertCloudItem accountId item
    | none => pure ()

def initialSync (accountId : AccountId) : SyncM Nat := do
  let items ← call "Failed to list root folder" (.listFolder CloudPath.root)
  let count := items.length
  items.forM (upsertCloudItem accountId)
  -- the cursor is taken after the listing and all upserts
  let changeList ← call "Failed to get initial change cursor" (.getChanges none)
  withConn (upsertCursor accountId changeList.cursor)
  pure count

/-- The loop of `incremental_sync`: one page of changes after the other. -/
def pageLoop (accountId : AccountId) : Nat → Cursor → Nat → SyncM Nat
  | 0, _, _ => throw .outOfFuel
  | fuel + 1, cursor, totalChanges => do
    let changeList ← call "Failed to get changes" (.getChanges (some cursor))
    let totalChanges ← changeList.changes.foldlM (fun n change => do
      applyChange accountId change
      pure (n + 1)) totalChanges
    -- the cursor is stored once the whole page is applied
    withConn (upsertCursor accountId changeList.cursor)
    if !changeList.hasMore then pure totalChanges
    else pageLoop accountId fuel changeList.cursor totalChanges

def incrementalSync (fuel : Nat) (accountId : AccountId) : SyncM Nat := do
  match ← withConn (getCursor accountId) with
  -- no cursor yet: a full sync
  | none => initialSync accountId
  | some cursor => pageLoop accountId fuel cursor 0

/-! ## The world -/

/-- A provider: what other clients do to it before a step, and its answers. -/
structure Remote (π : Type) where
  advance : Nat → π → π
  listFolder : CloudPath → π → Except CloudError (List CloudItem)
  getChanges : Option Cursor → π → Except CloudError ChangeList

/-- What the syncer cannot control: the provider, the clock, and the faults of every step. -/
structure Env (π : Type) where
  remote : Remote π
  clock : Nat → DateTime
  netFault : Nat → Option CloudError
  dbFault : Nat → Option DbError

structure World (π : Type) where
  db : Database
  remote : π
  step : Nat

/-- No step fails. -/
structure Env.Quiet {π : Type} (env : Env π) : Prop where
  net : ∀ n, env.netFault n = none
  db : ∀ n, env.dbFault n = none

section

variable {π : Type}

/-- The world after one step. -/
def World.tick (env : Env π) (w : World π) (db : Database) : World π where
  db := db
  remote := env.remote.advance w.step w.remote
  step := w.step + 1

@[simp] theorem World.tick_db (env : Env π) (w : World π) (db : Database) : (w.tick env db).db = db := rfl

@[simp] theorem World.tick_step (env : Env π) (w : World π) (db : Database) : (w.tick env db).step = w.step + 1 := rfl

/-- An answer of the provider, unless the network fails. -/
def answer {α : Type} (fault : Option CloudError) (r : Except CloudError α) : Except CloudError α :=
  match fault with
  | some e => .error e
  | none => r

/-- Every `with_conn` section makes at most one write, its last statement, so a section that a fault
stops leaves the database as it was. -/
def handler (env : Env π) : Prog.Handler SyncOp (World π)
  | _, .listFolder path, w =>
    (answer (env.netFault w.step) (env.remote.listFolder path (env.remote.advance w.step w.remote)), w.tick env w.db)
  | _, .getChanges cursor, w =>
    (answer (env.netFault w.step) (env.remote.getChanges cursor (env.remote.advance w.step w.remote)),
      w.tick env w.db)
  | _, .withConn f, w =>
    match env.dbFault w.step with
    | some e => (.error (.err e), w.tick env w.db)
    | none => ((f (env.clock w.step) w.db).1, w.tick env (f (env.clock w.step) w.db).2)

theorem handler_withConn_fault {β : Type} {env : Env π} {w : World π} {e : DbError} (f : DbM β)
    (h : env.dbFault w.step = some e) :
    handler env (Except Abort β) (.withConn f) w = (.error (.err e), w.tick env w.db) := by
  simp only [handler, h]

theorem handler_withConn_run {β : Type} {env : Env π} {w : World π} (f : DbM β) (h : env.dbFault w.step = none) :
    handler env (Except Abort β) (.withConn f) w =
      ((f (env.clock w.step) w.db).1, w.tick env (f (env.clock w.step) w.db).2) := by
  simp only [handler, h]

/-! ## Triples of the effects -/

variable {env : Env π} {I : World π → Prop} {w : World π}

/-- A section either meets a fault and changes nothing, or runs at the clock of its step. -/
theorem triple_withConn {β : Type} {f : DbM β} {Q : Except SyncError β → World π → Prop} (hI : I w)
    (hfault : ∀ e, env.dbFault w.step = some e →
      I (w.tick env w.db) ∧ Q (.error (.db (.err e))) (w.tick env w.db))
    (hrun : ∀ r db, f (env.clock w.step) w.db = (r, db) →
      I (w.tick env db) ∧ Q (r.mapError .db) (w.tick env db)) :
    Triple (handler env) I w (withConn f) Q := by
  have hstep : ∃ r db, (handler env _ (.withConn f) w = (r, w.tick env db)) ∧
      I (w.tick env db) ∧ Q (r.mapError .db) (w.tick env db) := by
    cases hf : env.dbFault w.step with
    | some e => exact ⟨_, w.db, handler_withConn_fault f hf, hfault e hf⟩
    | none => exact ⟨_, _, handler_withConn_run f hf, hrun _ _ rfl⟩
  obtain ⟨r, db, hh, hI', hQ⟩ := hstep
  unfold withConn
  refine Triple.bind (R := fun a w' => a = .ok r ∧ w' = w.tick env db) ?_ ?_ ?_
  · exact Triple.lift hI (by rw [hh]; exact hI') (by rw [hh]; exact ⟨rfl, rfl⟩)
  · rintro a w' _ ⟨ha, rfl⟩
    cases ha
    cases r with
    | ok b => exact Triple.pure hI' hQ
    | error e => exact Triple.throw hI' hQ
  · rintro e w' _ ⟨he, -⟩; cases he

/-- A provider call either fails, or returns the provider's answer at its step. -/
theorem triple_call {α : Type} {context : String} {o : SyncOp (Except CloudError α)} {r : Except CloudError α}
    {Q : Except SyncError α → World π → Prop} (hI : I w) (hI' : I (w.tick env w.db))
    (hans : handler env _ o w = (answer (env.netFault w.step) r, w.tick env w.db))
    (herr : ∀ e, answer (env.netFault w.step) r = .error e → Q (.error (.provider context.toList e)) (w.tick env w.db))
    (hok : ∀ a, r = .ok a → Q (.ok a) (w.tick env w.db)) :
    Triple (handler env) I w (call context o) Q := by
  unfold call
  refine Triple.bind (R := fun a w' => a = .ok (answer (env.netFault w.step) r) ∧ w' = w.tick env w.db) ?_ ?_ ?_
  · exact Triple.lift hI (by rw [hans]; exact hI') (by rw [hans]; exact ⟨rfl, rfl⟩)
  · rintro a w' _ ⟨ha, rfl⟩
    cases hr : answer (env.netFault w.step) r with
    | error e =>
      rw [hr] at ha; cases ha
      exact Triple.throw hI' (herr e hr)
    | ok a =>
      rw [hr] at ha; cases ha
      refine Triple.pure hI' (hok a ?_)
      unfold answer at hr
      split at hr
      · cases hr
      · exact hr
  · rintro e w' _ ⟨he, -⟩; cases he

end

end CloudSync
