/-
A mount of Google Drive with a live sync. The first round stores the listing and a cursor; from then on every round asks
for the changes after a cursor, which the client library refuses, so the mount goes on showing the first listing.
-/
import CloudSync.Vfs.BackgroundSync
import CloudSync.Vfs.DriveAgreement
import CloudSync.Vfs.PathWalk

namespace CloudSync

open GDrive (DriveApi)
open Prog (exec)

namespace SyncThread

section

variable {π : Type} {env : Env π} {account : AccountId} {c : Cursor} {db : Database} {old : List (SyncRound π)}

/-- The database is as it was after the rounds `old`, and all rounds since have failed. -/
structure Frozen (db : Database) (old : List (SyncRound π)) (t : SyncThread π) : Prop where
  started : t.phase ≠ .starting
  db : t.world.db = db
  rounds : ∃ new, t.rounds = old ++ new ∧ ∀ round ∈ new, ∃ e, round.result = .error e

theorem Frozen.step (hcur : db.cursorOf account = some c)
    (hrefused : ∀ s, ∃ e, env.remote.getChanges (some c) s = .error e) {t : SyncThread π} (h : Frozen db old t)
    (e : ThreadEvent) : Frozen db old (t.step env account e) := by
  obtain ⟨new, hrounds, hfailed⟩ := h.rounds
  rcases @step_cases _ env account e t with ⟨hphase, -⟩ | ⟨fuel, -, -, hstep⟩ | ⟨hdb, hrounds', -, hphase⟩
  · exact absurd hphase h.started
  · have hcur' : t.world.db.cursorOf account = some c := h.db ▸ hcur
    obtain ⟨hdb, err, herr, -⟩ := (incrementalSync_refused hcur' hrefused fuel).post
    rw [hstep]
    refine ⟨SyncPhase.noConfusion, hdb.trans h.db, new ++ [roundOf env (incrementalSync fuel account) t.world], ?_, ?_⟩
    · show t.rounds ++ _ = _
      rw [hrounds, List.append_assoc]
    · intro round hmem
      rcases List.mem_append.1 hmem with hmem | hmem
      · exact hfailed round hmem
      · obtain rfl := List.mem_singleton.1 hmem
        exact ⟨err, herr⟩
  · exact ⟨hphase h.started, hdb.trans h.db, new, hrounds'.trans hrounds, hfailed⟩

theorem Frozen.run (hcur : db.cursorOf account = some c)
    (hrefused : ∀ s, ∃ e, env.remote.getChanges (some c) s = .error e) {t : SyncThread π} (h : Frozen db old t)
    (events : List ThreadEvent) : Frozen db old (t.run env account events) := by
  induction events generalizing t with
  | nil => exact h
  | cons e events ih => exact ih (h.step hcur hrefused e)

end

end SyncThread

end CloudSync
