/-
Initial sync: every state of every run has a prefix of the root listing upserted, and a run that
returns has all of it, with the cursor of a later step. It only ever sets rows, so it re-baselines a
table exactly when the table held no file outside the listing.
-/
import CloudSync.Vfs.Convergence

namespace CloudSync

open KeyedLog (Entry Cell)
open Prog (exec Triple)

/-! ## Steps of the world -/

section

variable {π : Type} {env : Env π}

/-- The provider's state after `n` more steps. -/
def World.remoteAfter (env : Env π) (w : World π) : Nat → π
  | 0 => w.remote
  | n + 1 => env.remote.advance (w.step + n) (w.remoteAfter env n)

/-- `w'` is `n` steps after `w`. -/
structure World.After (env : Env π) (w : World π) (n : Nat) (w' : World π) : Prop where
  step : w'.step = w.step + n
  remote : w'.remote = w.remoteAfter env n

theorem World.After.refl (env : Env π) (w : World π) : w.After env 0 w := ⟨rfl, rfl⟩

theorem World.After.tick {w w' : World π} {n : Nat} (h : w.After env n w') (db : Database) :
    w.After env (n + 1) (w'.tick env db) := by
  refine ⟨by rw [World.tick_step, h.step, Nat.add_assoc], ?_⟩
  show env.remote.advance w'.step w'.remote = _
  rw [h.step, h.remote]; rfl

/-- A provider no one else writes to keeps its state. -/
theorem World.remoteAfter_still (hstill : ∀ n s, env.remote.advance n s = s) (w : World π) :
    ∀ n, w.remoteAfter env n = w.remote
  | 0 => rfl
  | n + 1 => by
    show env.remote.advance _ (w.remoteAfter env n) = _
    rw [hstill, World.remoteAfter_still hstill w n]

end

/-! ## The run of initial sync -/

section

variable {π : Type} {env : Env π} {account : AccountId}

/-- Without its accounts row an account has no row, and its items are refused. -/
theorem upsertSection_refused {db : Database} (item : CloudItem) (now : DateTime) (hacc : account ∉ db.accounts) :
    ∃ e, upsertSection account item now db = (.error e, db) := by
  have hrow : db.rowOf account item.id = none := by
    cases h : db.rowOf account item.id with
    | none => rfl
    | some r =>
      obtain ⟨-, -, -, -, hmem⟩ := Database.rowOf_written h
      exact absurd hmem hacc
  have hcreate : createFile (cloudItemToDbFile now account item) now db = (.error duplicateError, db) :=
    createFile_refused now (Database.insertFile_noAccount hrow hacc)
  unfold upsertSection
  rw [DbM.bind_ok (getFileByProviderId_none now hrow)]
  refine ⟨duplicateError, ?_⟩
  show (DbM.now >>= fun now => createFile (cloudItemToDbFile now account item) >>= fun _ => pure ()) now db = _
  rw [DbM.bind_ok (DbM.now_eq now db), DbM.bind_error hcreate]

theorem upsertCursor_refused {db : Database} (cursor : Cursor) (now : DateTime) (hacc : account ∉ db.accounts) :
    ∃ e, upsertCursor account cursor now db = (.error e, db) := by
  unfold upsertCursor
  simp only
  split
  · rename_i hany
    obtain ⟨r, hr, hra⟩ := List.any_eq_true.1 hany
    have hra : r.accountId = account.val := by simpa using hra
    have hfk := db.cursorsFk r hr
    rw [hra] at hfk
    exact absurd hfk hacc
  · exact ⟨_, rfl⟩

/-- A section that is refused changes nothing and returns no value. -/
theorem refused_triple {f : DbM Unit} {w : World π} (hf : ∀ now, ∃ e, f now w.db = (.error e, w.db)) :
    Triple (handler env) (fun _ => True) w (withConn f) fun r _ => ∃ e, r = .error e := by
  refine triple_withConn trivial (fun e _ => ⟨trivial, _, rfl⟩) fun r db hr => ?_
  obtain ⟨e, he⟩ := hf (env.clock w.step)
  rw [hr] at he; cases he
  exact ⟨trivial, _, rfl⟩

/-- The items of an account that is not there are not upserted: the loop over them stops at the first. -/
theorem upserts_refused {w w₁ : World π} (hacc : account ∉ w.db.accounts) (items : List CloudItem)
    (hdb : w₁.db = w.db) :
    Triple (handler env) (fun _ => True) w₁ (items.forM (upsertCloudItem account)) fun r w' => match r with
      | .ok _ => w'.db = w.db
      | .error _ => True := by
  refine Triple.forM (R := fun _ w' => w'.db = w.db) (fun _ _ _ => trivial) items hdb ?_ fun _ h => h
  intro _ item _ w₂ _ hdb₂
  refine (refused_triple fun now => upsertSection_refused item now (hdb₂ ▸ hacc)).conseq ?_
  rintro _ _ - ⟨e, rfl⟩
  trivial

/-- Initial sync returns only for an account of the `accounts` table. -/
theorem initialSync_account {w w' : World π} {n : Nat}
    (hrun : exec (handler env) (initialSync account) w = (.ok n, w')) : account ∈ w.db.accounts := by
  by_contra hacc
  have h : Triple (handler env) (fun _ => True) w (initialSync account) fun r _ => ∃ e, r = .error e := by
    unfold initialSync
    refine Triple.bind (R := fun _ w' => w'.db = w.db)
      (triple_call trivial trivial rfl (fun _ _ => rfl) fun _ _ => rfl) ?_ fun e _ _ _ => ⟨e, rfl⟩
    intro items w₁ _ hdb₁
    refine Triple.bind (upserts_refused hacc items hdb₁) ?_ fun e _ _ _ => ⟨e, rfl⟩
    intro _ w₂ _ hdb₂
    have hdb₂ : w₂.db = w.db := hdb₂
    refine Triple.bind (R := fun _ w' => w'.db = w.db)
      (triple_call trivial trivial rfl (fun _ _ => hdb₂) fun _ _ => hdb₂) ?_ fun e _ _ _ => ⟨e, rfl⟩
    intro cl w₃ _ hdb₃
    refine Triple.bind (refused_triple fun now => upsertCursor_refused cl.cursor now (hdb₃ ▸ hacc)) ?_
      fun e _ _ _ => ⟨e, rfl⟩
    rintro _ _ _ ⟨e, he⟩
    cases he
  obtain ⟨e, he⟩ := h.post
  rw [hrun] at he; cases he

/-- Upserting a listing, one step after the start: every state has a prefix of it upserted, one step
each. -/
theorem upserts_triple {items : List CloudItem} {w : World π} (hacc : account ∈ w.db.accounts) :
    Triple (handler env) (fun w' => ∃ p, p <+: items ∧ Replayed account (p.map CloudItem.entry) w.db w'.db)
      (w.tick env w.db) (items.forM (upsertCloudItem account)) fun r w' => match r with
        | .ok _ => Replayed account (items.map CloudItem.entry) w.db w'.db ∧ w.After env (items.length + 1) w'
        | .error _ => ¬ env.Quiet := by
  -- after `pre` the prefix `pre` is applied, `pre.length + 1` steps from the start
  refine Triple.forM (R := fun pre (w' : World π) => pre <+: items ∧
    Replayed account (pre.map CloudItem.entry) w.db w'.db ∧ w.After env (pre.length + 1) w')
    (fun pre w' ⟨hp, hr, _⟩ => ⟨pre, hp, hr⟩) items
    ⟨List.nil_prefix, Replayed.refl account w.db, (World.After.refl env w).tick w.db⟩ ?_ fun w' h => h.2
  rintro pre item post w₂ hsplit ⟨hp, hr, hafter⟩
  have hp' : pre ++ [item] <+: items := ⟨post, by simpa using hsplit.symm⟩
  have hstep : ∀ {db : Database}, Replayed account [item.entry] w₂.db db →
      Replayed account ((pre ++ [item]).map CloudItem.entry) w.db db := by
    intro db hone
    rw [List.map_append]; exact hr.trans hone
  refine (upsertCloudItem_triple (P := fun db => ∃ p, p <+: items ∧
    Replayed account (p.map CloudItem.entry) w.db db) item (hr.accounts ▸ hacc) ⟨pre, hp, hr⟩
    fun db _ hone => ⟨_, hp', hstep hone⟩).conseq ?_
  rintro (e | _) w₃ - ⟨htick, hQ⟩
  · exact hQ
  · refine ⟨hp', hstep hQ.2, ?_⟩
    rw [htick, List.length_append]
    exact hafter.tick w₃.db

/-- The run of initial sync over the listing of its first step: every state has a prefix of the
listing upserted; an `Ok` result has all of it upserted and stores the cursor the provider gives in
the step after the upserts; without faults it only fails with the provider. -/
theorem initialSync_triple {items : List CloudItem} (w : World π)
    (hlist : env.remote.listFolder CloudPath.root (w.remoteAfter env 1) = .ok items)
    (hacc : account ∈ w.db.accounts) :
    Triple (handler env) (fun w' => ∃ p, p <+: items ∧ Replayed account (p.map CloudItem.entry) w.db w'.db) w
      (initialSync account) fun r w' => match r with
        | .ok n => n = items.length ∧ Replayed account (items.map CloudItem.entry) w.db w'.db ∧
            w.After env (items.length + 3) w' ∧
            ∃ cl, env.remote.getChanges none (w.remoteAfter env (items.length + 2)) = .ok cl ∧
              w'.db.cursorOf account = some cl.cursor
        | .error _ => ¬ (env.Quiet ∧
            ∃ cl, env.remote.getChanges none (w.remoteAfter env (items.length + 2)) = .ok cl) := by
  have hstart : ∃ p, p <+: items ∧ Replayed account (p.map CloudItem.entry) w.db w.db :=
    ⟨[], List.nil_prefix, Replayed.refl account w.db⟩
  unfold initialSync
  refine Triple.bind (R := fun r w' => w' = w.tick env w.db ∧ match r with
    | .ok l => l = items
    | .error _ => ¬ env.Quiet) ?_ ?_ ?_
  · refine triple_call hstart hstart rfl (fun e he => ⟨rfl, fun hq => ?_⟩) fun l hl => ⟨rfl, ?_⟩
    · rw [hq.net] at he
      exact absurd (he.symm.trans hlist) (by simp)
    · exact Except.ok.inj (hl.symm.trans hlist)
  · rintro l w₁ - ⟨rfl, hl⟩
    rw [show l = items from hl]
    refine Triple.bind (upserts_triple hacc) ?_ ?_
    · rintro _ w₂ hI ⟨hr, hafter⟩
      refine Triple.bind (R := fun r w' => w' = w₂.tick env w₂.db ∧ match r with
        | .ok cl => env.remote.getChanges none (w.remoteAfter env (items.length + 2)) = .ok cl
        | .error _ => ¬ (env.Quiet ∧
            ∃ cl, env.remote.getChanges none (w.remoteAfter env (items.length + 2)) = .ok cl)) ?_ ?_ ?_
      -- the provider is asked one step after the last upsert
      · have hremote : env.remote.advance w₂.step w₂.remote = w.remoteAfter env (items.length + 2) :=
          (hafter.tick w₂.db).remote
        refine triple_call hI hI rfl (fun e he => ⟨rfl, fun ⟨hq, cl, hcl⟩ => ?_⟩) fun cl hcl => ⟨rfl, ?_⟩
        · rw [hq.net, hremote] at he
          exact absurd (he.symm.trans hcl) (by simp)
        · rw [hremote] at hcl; exact hcl
      · rintro cl w₃ - ⟨rfl, hcl⟩
        have hkeep : ∀ {db : Database}, Replayed account [] w₂.db db →
            Replayed account (items.map CloudItem.entry) w.db db := by
          intro db hnone
          have h := hr.trans hnone
          rwa [List.append_nil] at h
        refine Triple.bind (upsertCursor_triple (P := fun db => ∃ p, p <+: items ∧
          Replayed account (p.map CloudItem.entry) w.db db) (w := w₂.tick env w₂.db) cl.cursor (hr.accounts ▸ hacc)
          ⟨_, List.prefix_refl _, hr⟩ fun db _ hnone => ⟨_, List.prefix_refl _, hkeep hnone⟩) ?_ ?_
        · rintro _ w₄ hI₄ ⟨htick, hcur, hnone⟩
          refine Triple.pure hI₄ ⟨rfl, hkeep hnone, ?_, cl, hcl, hcur⟩
          rw [htick]
          exact (hafter.tick w₂.db).tick w₄.db
        · rintro e w₄ - ⟨-, hq⟩ h
          exact hq h.1
      · rintro e w₃ - ⟨-, h⟩; exact h
    · rintro e w₂ - hq h
      exact hq h.1
  · rintro e w₁ - ⟨-, hq⟩ h
    exact hq h.1

/-- What a successful run of initial sync leaves. -/
theorem initialSync_ok {items : List CloudItem} {w w' : World π} {n : Nat}
    (hlist : env.remote.listFolder CloudPath.root (w.remoteAfter env 1) = .ok items)
    (hrun : exec (handler env) (initialSync account) w = (.ok n, w')) :
    n = items.length ∧ Replayed account (items.map CloudItem.entry) w.db w'.db ∧ w.After env (items.length + 3) w' ∧
      ∃ cl, env.remote.getChanges none (w.remoteAfter env (items.length + 2)) = .ok cl ∧
        w'.db.cursorOf account = some cl.cursor := by
  have hpost := (initialSync_triple w hlist (initialSync_account hrun)).post
  rw [hrun] at hpost
  exact hpost

/-! ## Re-baselining -/

theorem mem_entries_set {items : List CloudItem} {id : FileId} {m : Metadata} :
    Entry.set id m ∈ items.map CloudItem.entry ↔ ∃ item ∈ items, item.id = id ∧ item.metadata = m := by
  rw [List.mem_map]
  refine exists_congr fun item => and_congr_right fun _ => ?_
  unfold CloudItem.entry
  rw [Entry.set.injEq]

theorem metadataOf_empty {db : Database} (hempty : db.files.rows = []) (account : AccountId) (id : FileId) :
    db.metadataOf account id = none := by
  unfold Database.metadataOf Database.rowOf FilesTable.rowAt
  rw [hempty]
  rfl

/-- Upserts into an empty files table leave exactly the items, if no id has two metadata. -/
theorem Replayed.metadataOf_items {account : AccountId} {items : List CloudItem} {db db' : Database}
    (h : Replayed account (items.map CloudItem.entry) db db') (hempty : db.files.rows = [])
    (huniq : ∀ item₁ ∈ items, ∀ item₂ ∈ items, item₁.id = item₂.id → item₁.metadata = item₂.metadata)
    (id : FileId) (m : Metadata) :
    db'.metadataOf account id = some m ↔ ∃ item ∈ items, item.id = id ∧ item.metadata = m := by
  have hsets : ∀ e ∈ items.map CloudItem.entry, ∀ id, e ≠ .erase id := by
    intro e he id hid
    obtain ⟨item, -, rfl⟩ := List.mem_map.1 he
    cases hid
  rw [h.metadata, ← mem_entries_set]
  refine (KeyedLog.replay_plain_graph_iff (db.metadataOf account) hsets).2 ⟨fun id hid => ?_, ?_⟩ id m
  · rw [metadataOf_empty hempty] at hid
    cases hid
  · intro id m₁ m₂ h₁ h₂
    obtain ⟨item₁, hmem₁, rfl, rfl⟩ := mem_entries_set.1 h₁
    obtain ⟨item₂, hmem₂, hid, rfl⟩ := mem_entries_set.1 h₂
    exact huniq item₁ hmem₁ item₂ hmem₂ hid.symm

/-- With no remote event during the call, the rows of the account are exactly the listing after
initial sync if and only if every row was of a listed file, and no file is listed with two
different metadata: rows of files the listing lacks stay. -/
theorem initialSync_rebaselines_iff (env : Env π) (account : AccountId) {items : List CloudItem} (w : World π)
    {w' : World π} {n : Nat}
    (hstill : ∀ n s, env.remote.advance n s = s)
    (hlist : env.remote.listFolder CloudPath.root w.remote = .ok items)
    (hrun : exec (handler env) (initialSync account) w = (.ok n, w')) :
    (∀ id m, w'.db.metadataOf account id = some m ↔ ∃ item ∈ items, item.id = id ∧ item.metadata = m) ↔
      (∀ id, (w.db.rowOf account id).isSome → ∃ item ∈ items, item.id = id) ∧
        ∀ item₁ ∈ items, ∀ item₂ ∈ items, item₁.id = item₂.id → item₁.metadata = item₂.metadata := by
  obtain ⟨-, hrep, -, -⟩ := initialSync_ok (by rw [World.remoteAfter_still hstill]; exact hlist) hrun
  have hsets : ∀ e ∈ items.map CloudItem.entry, ∀ id, e ≠ .erase id := by
    intro e he id hid
    obtain ⟨item, -, rfl⟩ := List.mem_map.1 he
    cases hid
  have hgraph := KeyedLog.replay_plain_graph_iff (w.db.metadataOf account) hsets
  rw [← hrep.metadata] at hgraph
  simp only [mem_entries_set] at hgraph
  rw [hgraph]
  refine and_congr (forall_congr' fun id => ?_) ⟨fun h item₁ h₁ item₂ h₂ hid => ?_, fun h id m₁ m₂ => ?_⟩
  · have hsome : (w.db.metadataOf account id).isSome = (w.db.rowOf account id).isSome := by
      unfold Database.metadataOf; rw [Option.isSome_map]
    rw [hsome]
    exact imp_congr_right fun _ =>
      ⟨fun ⟨_, item, hmem, hid, _⟩ => ⟨item, hmem, hid⟩, fun ⟨item, hmem, hid⟩ => ⟨_, item, hmem, hid, rfl⟩⟩
  · exact h item₂.id _ _ ⟨item₁, h₁, hid, rfl⟩ ⟨item₂, h₂, rfl, rfl⟩
  · rintro ⟨item₁, hmem₁, rfl, rfl⟩ ⟨item₂, hmem₂, hid, rfl⟩
    exact h item₁ hmem₁ item₂ hmem₂ hid.symm

end

/-- A provider that lists one file. -/
def oneFileRemote : Remote Unit := { sampleRemote with listFolder := fun _ _ => .ok [sampleItem ['f'] ['n']] }

theorem initialSync_rebaselines_oneFile :
    ∃ w', exec (handler (Env.calm oneFileRemote)) (initialSync sampleAccount) ⟨sampleDb, (), 0⟩ = (.ok 1, w') ∧
      ∀ id m, w'.db.metadataOf sampleAccount id = some m ↔
        ∃ item ∈ [sampleItem ['f'] ['n']], item.id = id ∧ item.metadata = m := by
  refine ⟨_, rfl, (initialSync_rebaselines_iff (Env.calm oneFileRemote) sampleAccount ⟨sampleDb, (), 0⟩
    (fun _ _ => rfl) rfl rfl).2 ⟨fun id hid => ?_, fun item₁ h₁ item₂ h₂ _ => ?_⟩⟩
  · cases hid
  · rw [List.mem_singleton.1 h₁, List.mem_singleton.1 h₂]

/-- A database with the row of one file. -/
def staleDb : Database := (upsertSection sampleAccount (sampleItem ['f'] ['n']) DateTime.epoch sampleDb).2

/-- The row of a file that was deleted remotely stays when the listing is empty. -/
theorem initialSync_keeps_stale_row :
    ∃ w', exec (handler (Env.calm sampleRemote)) (initialSync sampleAccount) ⟨staleDb, (), 0⟩ = (.ok 0, w') ∧
      sampleRemote.listFolder CloudPath.root () = .ok [] ∧
      ¬ ∀ id m, w'.db.metadataOf sampleAccount id = some m ↔
        ∃ item ∈ ([] : List CloudItem), item.id = id ∧ item.metadata = m := by
  refine ⟨_, rfl, rfl, fun h => ?_⟩
  obtain ⟨_, hmem, -⟩ := (h ⟨['f']⟩ (sampleItem ['f'] ['n']).metadata).1 rfl
  cases hmem

end CloudSync
