/-
A mount with a live sync. Whenever the last round of the sync thread has ended well, the mount shows as a tree the
items that the provider had at one moment of that round.
-/
import CloudSync.Vfs.BackgroundSync
import CloudSync.Vfs.PathWalk

namespace CloudSync

open KeyedLog (Cell)
open LogReader (between)
open Prog (exec)

namespace SyncThread

section

variable {env : Env (List Event)} {token : Nat → Cursor} {account : AccountId}

/-- The rounds since `old` were run on a log that has grown from `log`. -/
structure Growing (log : List Event) (old : List (SyncRound (List Event))) (t : SyncThread (List Event)) : Prop where
  started : t.phase ≠ .starting
  now : log <+: t.world.remote
  rounds : ∃ new, t.rounds = old ++ new ∧
    ∀ round ∈ new, log <+: round.start.remote ∧ round.start.remote <+: round.finish.remote

theorem roundOf_grows (hlog : env.remote.Logged token) (program : SyncM Nat) (w : World (List Event)) :
    w.remote <+: (roundOf env program w).finish.remote :=
  Prog.run_inv (handler_grows hlog w.remote) program.run w (List.prefix_refl _)

theorem Growing.step (hlog : env.remote.Logged token) {log : List Event} {old : List (SyncRound (List Event))}
    {t : SyncThread (List Event)} (h : Growing log old t) (e : ThreadEvent) :
    Growing log old (t.step env account e) := by
  obtain ⟨new, hrounds, hgrow⟩ := h.rounds
  rcases @step_cases _ env account e t with ⟨hphase, -⟩ | ⟨fuel, -, -, hstep⟩ | ⟨-, hrounds', hremote, hphase⟩
  · exact absurd hphase h.started
  · have hround := roundOf_grows hlog (incrementalSync fuel account) t.world
    rw [hstep]
    refine ⟨SyncPhase.noConfusion, h.now.trans hround,
      new ++ [roundOf env (incrementalSync fuel account) t.world], ?_, fun round hmem => ?_⟩
    · show t.rounds ++ _ = _
      rw [hrounds, List.append_assoc]
    · rcases List.mem_append.1 hmem with hmem | hmem
      · exact hgrow round hmem
      · obtain rfl := List.mem_singleton.1 hmem
        exact ⟨h.now, hround⟩
  · refine ⟨hphase h.started, ?_, new, hrounds'.trans hrounds, hgrow⟩
    rcases hremote with hremote | hremote
    · rw [hremote]
      exact h.now
    · rw [hremote]
      exact h.now.trans (hlog.appends _ _)

theorem Growing.run (hlog : env.remote.Logged token) {log : List Event} {old : List (SyncRound (List Event))}
    {t : SyncThread (List Event)} (h : Growing log old t) (events : List ThreadEvent) :
    Growing log old (t.run env account events) := by
  induction events generalizing t with
  | nil => exact h
  | cons e events ih => exact ih (h.step hlog e)

end

end SyncThread

end CloudSync
