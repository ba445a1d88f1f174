/-
Incremental sync over a paged change log. The loop invariant is a position in the log: so many
pages are applied and their cursor is stored, and a prefix of the changes after it is applied too.
It holds in every state of every run, whatever fails; a run without faults ends at the last page.
-/
import CloudSync.Vfs.Replay

namespace CloudSync

open KeyedLog (Entry Cell)
open Prog (exec Triple)

/-! ## Paged logs -/

/-- Following the cursors from `c`, the provider serves the pages of a change log, up to the last. -/
inductive Serves {π : Type} (remote : Remote π) : Cursor → List ChangeList → Prop
  | last {c : Cursor} {page : ChangeList} (h : ∀ s, remote.getChanges (some c) s = .ok page)
      (hmore : page.hasMore = false) : Serves remote c [page]
  | more {c : Cursor} {page : ChangeList} {pages : List ChangeList}
      (h : ∀ s, remote.getChanges (some c) s = .ok page) (hmore : page.hasMore = true)
      (rest : Serves remote page.cursor pages) : Serves remote c (page :: pages)

theorem Serves.inv {π : Type} {remote : Remote π} {c : Cursor} {pages : List ChangeList}
    (h : Serves remote c pages) :
    ∃ page rest, pages = page :: rest ∧ (∀ s, remote.getChanges (some c) s = .ok page) ∧
      ((page.hasMore = false ∧ rest = []) ∨ (page.hasMore = true ∧ Serves remote page.cursor rest)) := by
  cases h with
  | last h hmore => exact ⟨_, [], rfl, h, .inl ⟨hmore, rfl⟩⟩
  | more h hmore rest => exact ⟨_, _, rfl, h, .inr ⟨hmore, rest⟩⟩

/-- The change log that was cut into the pages. -/
def logOf (pages : List ChangeList) : List Change := pages.flatMap ChangeList.changes

/-- The cursor after the pages, `c` being the one before them. -/
def cursorAfter (c : Cursor) (pages : List ChangeList) : Cursor := pages.foldl (fun _ page => page.cursor) c

@[simp] theorem logOf_nil : logOf [] = [] := rfl

@[simp] theorem logOf_cons (page : ChangeList) (pages : List ChangeList) :
    logOf (page :: pages) = page.changes ++ logOf pages := rfl

@[simp] theorem logOf_append (pages₁ pages₂ : List ChangeList) :
    logOf (pages₁ ++ pages₂) = logOf pages₁ ++ logOf pages₂ := List.flatMap_append

@[simp] theorem cursorAfter_nil (c : Cursor) : cursorAfter c [] = c := rfl

@[simp] theorem cursorAfter_cons (c : Cursor) (page : ChangeList) (pages : List ChangeList) :
    cursorAfter c (page :: pages) = cursorAfter page.cursor pages := rfl

/-- The entries of a change log. -/
def entries (log : List Change) : List (Entry FileId Metadata) := log.map Change.entry

@[simp] theorem entries_nil : entries [] = [] := rfl

@[simp] theorem entries_append (l₁ l₂ : List Change) : entries (l₁ ++ l₂) = entries l₁ ++ entries l₂ :=
  List.map_append

/-- A position in the pages, `db₀` being the database at the cursor `c` with the log `done` applied
before: the pages `stored` are applied and their cursor is stored, and the changes `p` after them
are applied too. -/
def Midway (account : AccountId) (c : Cursor) (pages : List ChangeList) (done : List (Entry FileId Metadata))
    (db₀ db : Database) : Prop :=
  ∃ stored rest p, stored ++ rest = pages ∧ db.cursorOf account = some (cursorAfter c stored) ∧
    p <+: logOf rest ∧ Replayed account (done ++ entries (logOf stored ++ p)) db₀ db

theorem Midway.cons {account : AccountId} {c : Cursor} {page : ChangeList} {pages : List ChangeList}
    {done : List (Entry FileId Metadata)} {db₀ db : Database}
    (h : Midway account page.cursor pages (done ++ entries page.changes) db₀ db) :
    Midway account c (page :: pages) done db₀ db := by
  obtain ⟨stored, rest, p, rfl, hc, hp, hr⟩ := h
  exact ⟨page :: stored, rest, p, rfl, hc, hp, by simpa [List.append_assoc] using hr⟩

/-! ## One step -/

section

variable {π : Type} {env : Env π} {account : AccountId}

/-- A section that replays one entry: without a fault it runs, with a fault it changes nothing. -/
theorem section_triple {f : DbM Unit} {e : Entry FileId Metadata} {P : Database → Prop} {w : World π}
    (hf : ∀ now, ∃ db, f now w.db = (.ok (), db) ∧ db.cursors = w.db.cursors ∧ Replayed account [e] w.db db)
    (hP : P w.db) (hP' : ∀ db, db.cursors = w.db.cursors → Replayed account [e] w.db db → P db) :
    Triple (handler env) (fun w => P w.db) w (withConn f) fun r w' =>
      w' = w.tick env w'.db ∧ match r with
        | .ok _ => w'.db.cursors = w.db.cursors ∧ Replayed account [e] w.db w'.db
        | .error _ => ¬ env.Quiet := by
  refine triple_withConn hP (fun err herr => ⟨hP, rfl, fun hq => ?_⟩) fun r db hr => ?_
  · rw [hq.db] at herr; cases herr
  · obtain ⟨db', hdb', hcur, hrep⟩ := hf (env.clock w.step)
    rw [hr] at hdb'; cases hdb'
    exact ⟨hP' db hcur hrep, rfl, hcur, hrep⟩

theorem upsertCloudItem_triple (item : CloudItem) {P : Database → Prop} {w : World π}
    (hacc : account ∈ w.db.accounts) (hP : P w.db)
    (hP' : ∀ db, db.cursors = w.db.cursors → Replayed account [item.entry] w.db db → P db) :
    Triple (handler env) (fun w => P w.db) w (upsertCloudItem account item) fun r w' =>
      w' = w.tick env w'.db ∧ match r with
        | .ok _ => w'.db.cursors = w.db.cursors ∧ Replayed account [item.entry] w.db w'.db
        | .error _ => ¬ env.Quiet :=
  section_triple (fun now => upsertSection_spec item now hacc) hP hP'

theorem applyChange_triple (change : Change) {P : Database → Prop} {w : World π}
    (hacc : account ∈ w.db.accounts) (hP : P w.db)
    (hP' : ∀ db, db.cursors = w.db.cursors → Replayed account [change.entry] w.db db → P db) :
    Triple (handler env) (fun w => P w.db) w (applyChange account change) fun r w' => match r with
      | .ok _ => w'.db.cursors = w.db.cursors ∧ Replayed account [change.entry] w.db w'.db
      | .error _ => ¬ env.Quiet := by
  unfold applyChange
  split
  · rename_i hdel
    have he : change.entry = .erase change.fileId := by unfold Change.entry; rw [if_pos hdel]
    rw [he] at hP' ⊢
    exact (section_triple (fun now => deleteSection_spec change.fileId now) hP hP').conseq fun r w' _ h => h.2
  · rename_i hdel
    cases hitem : change.item with
    | none =>
      have he : change.entry = .skip := by unfold Change.entry; rw [if_neg hdel, hitem]
      have hskip : Replayed account [.skip] w.db w.db :=
        ⟨rfl, fun _ r hr _ => ⟨r, hr, rfl, rfl⟩, fun _ _ => rfl, rfl⟩
      rw [he] at hP' ⊢
      exact Triple.pure hP ⟨rfl, hskip⟩
    | some item =>
      have he : change.entry = item.entry := by unfold Change.entry; rw [if_neg hdel, hitem]
      rw [he] at hP' ⊢
      exact (upsertCloudItem_triple item hacc hP hP').conseq fun r w' _ h => h.2

/-- Storing a cursor changes no row. -/
theorem upsertCursor_triple (cursor : Cursor) {P : Database → Prop} {w : World π}
    (hacc : account ∈ w.db.accounts) (hP : P w.db)
    (hP' : ∀ db, db.cursorOf account = some cursor → Replayed account [] w.db db → P db) :
    Triple (handler env) (fun w => P w.db) w (withConn (upsertCursor account cursor)) fun r w' =>
      w' = w.tick env w'.db ∧ match r with
        | .ok _ => w'.db.cursorOf account = some cursor ∧ Replayed account [] w.db w'.db
        | .error _ => ¬ env.Quiet := by
  refine triple_withConn hP (fun err herr => ⟨hP, rfl, fun hq => ?_⟩) fun r db hr => ?_
  · rw [hq.db] at herr; cases herr
  · obtain ⟨db', hdb', hfiles, haccs, hcur⟩ := upsertCursor_spec cursor (env.clock w.step) hacc
    rw [hr] at hdb'; cases hdb'
    have hrep : Replayed account [] w.db db := Replayed.of_files hfiles haccs
    exact ⟨hP' db hcur hrep, rfl, hcur, hrep⟩

end

/-! ## The loop over the pages -/

section

variable {π : Type} {env : Env π} {account : AccountId} {db₀ : Database}

/-- The loop over the changes of a page applies a prefix of them, and all of them when nothing fails. -/
theorem changes_triple {P : Database → Prop} {w : World π} {c : Cursor} {done : List (Entry FileId Metadata)}
    (changes : List Change) (total : Nat) (hacc : account ∈ db₀.accounts)
    (hcur : w.db.cursorOf account = some c) (hrep : Replayed account done db₀ w.db)
    (hP : ∀ p db, p <+: changes → db.cursorOf account = some c → Replayed account (done ++ entries p) db₀ db → P db) :
    Triple (handler env) (fun w => P w.db) w
      (changes.foldlM (fun n change => do applyChange account change; pure (n + 1)) total) fun r w' => match r with
        | .ok n => n = total + changes.length ∧ w'.db.cursorOf account = some c ∧
            Replayed account (done ++ entries changes) db₀ w'.db
        | .error _ => ¬ env.Quiet := by
  refine Triple.foldlM (R := fun pre n w' => n = total + pre.length ∧ pre <+: changes ∧
    w'.db.cursorOf account = some c ∧ Replayed account (done ++ entries pre) db₀ w'.db)
    (fun pre n w' ⟨_, hpre, hc, hr⟩ => hP pre w'.db hpre hc hr) changes [] total w
    ⟨rfl, List.nil_prefix, hcur, by simpa using hrep⟩ ?_ ?_
  · rintro pre change post n w' heq ⟨rfl, hpre, hc, hr⟩
    have hstep : ∀ db, db.cursors = w'.db.cursors → Replayed account [change.entry] w'.db db →
        db.cursorOf account = some c ∧ Replayed account (done ++ entries (pre ++ [change])) db₀ db := by
      intro db hdb hone
      constructor
      · unfold Database.cursorOf at hc ⊢; rw [hdb]; exact hc
      · rw [entries_append, ← List.append_assoc]; exact hr.trans hone
    have hpre' : pre ++ [change] <+: changes := ⟨post, by simpa using heq.symm⟩
    refine Triple.bind (applyChange_triple change (hr.accounts ▸ hacc) (hP pre _ hpre hc hr)
      fun db hdb hone => ?_) ?_ ?_
    · obtain ⟨h1, h2⟩ := hstep db hdb hone
      exact hP _ db hpre' h1 h2
    · rintro ⟨⟩ w'' hI ⟨hdb, hone⟩
      obtain ⟨h1, h2⟩ := hstep w''.db hdb hone
      exact Triple.pure hI ⟨by simp [Nat.add_assoc], hpre', h1, h2⟩
    · rintro e w'' _ he; exact he
  · rintro n w' ⟨rfl, -, hc, hr⟩
    exact ⟨rfl, hc, hr⟩

/-- The page loop from a stored cursor: every state is a position in the pages; an `Ok` result counts
the changes of all pages and leaves them applied with the last cursor stored; it can only fail by a
fault or for lack of fuel. -/
theorem pageLoop_triple (hacc : account ∈ db₀.accounts) :
    ∀ (fuel : Nat) {c : Cursor} {pages : List ChangeList} (total : Nat) (done : List (Entry FileId Metadata))
      (w : World π), Serves env.remote c pages → w.db.cursorOf account = some c → Replayed account done db₀ w.db →
      Triple (handler env) (fun w' => Midway account c pages done db₀ w'.db) w
        (pageLoop account fuel c total) fun r w' => match r with
          | .ok n => n = total + (logOf pages).length ∧ w'.db.cursorOf account = some (cursorAfter c pages) ∧
              Replayed account (done ++ entries (logOf pages)) db₀ w'.db
          | .error _ => ¬ (env.Quiet ∧ pages.length ≤ fuel)
  | 0, c, pages, total, done, w, hpages, hcur, hrep => by
    obtain ⟨page, rest, rfl, -⟩ := hpages.inv
    refine Triple.throw ⟨[], page :: rest, [], rfl, hcur, List.nil_prefix, by simpa using hrep⟩ fun h => ?_
    exact absurd h.2 (by simp)
  | fuel + 1, c, pages, total, done, w, hpages, hcur, hrep => by
    obtain ⟨page, rest, rfl, hfeed, hrest⟩ := hpages.inv
    -- the positions of this page: a prefix of it under the old cursor, or all of it under its own
    have hstart : ∀ p db, p <+: page.changes → db.cursorOf account = some c →
        Replayed account (done ++ entries p) db₀ db → Midway account c (page :: rest) done db₀ db := by
      intro p db hp hdb hr
      exact ⟨[], page :: rest, p, rfl, hdb, hp.trans (List.prefix_append _ _), by simpa using hr⟩
    have hdone : ∀ db, db.cursorOf account = some page.cursor →
        Replayed account (done ++ entries page.changes) db₀ db → Midway account c (page :: rest) done db₀ db := by
      intro db hdb hr
      exact ⟨[page], rest, [], rfl, hdb, List.nil_prefix, by simpa using hr⟩
    unfold pageLoop
    refine Triple.bind (R := fun r w' => w'.db = w.db ∧ match r with
      | .ok cl => cl = page
      | .error _ => ¬ env.Quiet) ?_ ?_ ?_
    · refine triple_call (hstart [] _ List.nil_prefix hcur (by simpa using hrep))
        (hstart [] _ List.nil_prefix hcur (by simpa using hrep)) rfl (fun e he => ⟨rfl, fun hq => ?_⟩)
        fun cl hcl => ⟨rfl, ?_⟩
      · rw [hq.net, hfeed] at he; cases he
      · rw [hfeed] at hcl; exact (Except.ok.inj hcl).symm
    · rintro cl w₁ - ⟨hdb₁, rfl⟩
      refine Triple.bind (changes_triple cl.changes total hacc (hdb₁ ▸ hcur) (hdb₁ ▸ hrep) hstart) ?_ ?_
      · rintro n w₂ - ⟨rfl, hc₂, hr₂⟩
        refine Triple.bind (upsertCursor_triple cl.cursor (hr₂.accounts ▸ hacc)
          (hstart _ _ (List.prefix_refl _) hc₂ hr₂) fun db hdb hr => ?_) ?_ ?_
        · exact hdone db hdb (by simpa using hr₂.trans hr)
        · rintro ⟨⟩ w₃ hI ⟨-, hc₃, hr₃⟩
          have hr₃ : Replayed account (done ++ entries cl.changes) db₀ w₃.db := by simpa using hr₂.trans hr₃
          rcases hrest with ⟨hmore, rfl⟩ | ⟨hmore, hrest⟩
          · simp only [hmore, Bool.not_false, if_true]
            exact Triple.pure hI ⟨by simp, hc₃, by simpa using hr₃⟩
          · simp only [hmore, Bool.not_true]
            refine ((pageLoop_triple hacc fuel (total + cl.changes.length)
              (done ++ entries cl.changes) w₃ hrest hc₃ hr₃).mono fun _ => Midway.cons).conseq ?_
            rintro (err | n) w' - hQ
            · intro h
              exact hQ ⟨h.1, by simpa using h.2⟩
            · obtain ⟨hn, hc, hr⟩ := hQ
              exact ⟨by simp [hn, Nat.add_assoc], hc, by simpa [List.append_assoc] using hr⟩
        · rintro err w₃ - ⟨-, hq⟩ h
          exact hq h.1
      · rintro err w₂ - hq h
        exact hq h.1
    · rintro err w₁ - ⟨-, hq⟩ h
      exact hq h.1

/-- Incremental sync from a stored cursor: the run of the page loop. -/
theorem incrementalSync_triple (fuel : Nat) {c : Cursor} {pages : List ChangeList} (w : World π)
    (hpages : Serves env.remote c pages) (hcur : w.db.cursorOf account = some c) (hacc : account ∈ w.db.accounts) :
    Triple (handler env) (fun w' => Midway account c pages [] w.db w'.db) w
      (incrementalSync fuel account) fun r w' => match r with
        | .ok n => n = (logOf pages).length ∧ w'.db.cursorOf account = some (cursorAfter c pages) ∧
            Replayed account (entries (logOf pages)) w.db w'.db
        | .error _ => ¬ (env.Quiet ∧ pages.length ≤ fuel) := by
  have hstart : Midway account c pages [] w.db w.db :=
    ⟨[], pages, [], rfl, hcur, List.nil_prefix, by simpa using Replayed.refl account w.db⟩
  unfold incrementalSync
  refine Triple.bind (R := fun r w' => w'.db = w.db ∧ match r with
    | .ok cursor => cursor = some c
    | .error _ => ¬ env.Quiet) ?_ ?_ ?_
  · refine triple_withConn hstart (fun err herr => ⟨hstart, rfl, fun hq => ?_⟩) fun r db hr => ?_
    · rw [hq.db] at herr; cases herr
    · rw [getCursor_eq, hcur] at hr; cases hr
      exact ⟨hstart, rfl, rfl⟩
  · rintro cursor w₁ - ⟨hdb₁, rfl⟩
    refine (pageLoop_triple hacc fuel 0 [] w₁ hpages (hdb₁ ▸ hcur)
      (hdb₁ ▸ Replayed.refl account w.db)).conseq ?_
    rintro (err | n) w' - hQ
    · exact hQ
    · simpa using hQ
  · rintro err w₁ - ⟨-, hq⟩ h
    exact hq h.1

/-- Without faults and with fuel for the pages, incremental sync returns the number of changes, and
leaves the whole log applied and the last cursor stored. -/
theorem incrementalSync_quiet (hq : env.Quiet) {fuel : Nat} {c : Cursor} {pages : List ChangeList} (w : World π)
    (hpages : Serves env.remote c pages) (hcur : w.db.cursorOf account = some c) (hfuel : pages.length ≤ fuel) :
    ∃ w', exec (handler env) (incrementalSync fuel account) w = (.ok (logOf pages).length, w') ∧
      w'.db.cursorOf account = some (cursorAfter c pages) ∧ Replayed account (entries (logOf pages)) w.db w'.db := by
  have hpost := (incrementalSync_triple fuel w hpages hcur (Database.account_of_cursor hcur)).post
  rcases hrun : exec (handler env) (incrementalSync fuel account) w with ⟨err | n, w'⟩
  · rw [hrun] at hpost; exact absurd ⟨hq, hfuel⟩ hpost
  · rw [hrun] at hpost
    obtain ⟨rfl, hc, hr⟩ := hpost
    exact ⟨w', rfl, hc, hr⟩

end

end CloudSync
