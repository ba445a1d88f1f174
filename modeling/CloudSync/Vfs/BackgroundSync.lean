/-
The background sync thread: an initial sync, then incremental syncs with a sleep before each, until its handle stops
it. The provider goes on changing and any step of any sync may fail; still every round that ends well leaves the rows
that a single pass over the changes since the first cursor would leave, and a stopped thread starts no round.
-/
import CloudSync.Lib.LogReader
import CloudSync.Vfs.Handover

namespace CloudSync

open KeyedLog (Entry Cell)
open LogReader (Behind between)
open Prog (exec Triple)

/-! ## Incremental sync at a provider that moves -/

section

variable {token : Nat → Cursor} {account : AccountId} {base : FileId → Option Metadata} {start : Nat}

theorem of_error_eq_ok {ε α : Type} {e : ε} {a : α} {P : Prop} (h : (Except.error e : Except ε α) = .ok a) : P := by
  cases h

theorem Event.length_entries (log : List Event) : (Event.entries log).length = log.length := by
  unfold Event.entries
  rw [List.length_map, List.length_map]

theorem Event.entries_between (log : List Event) (i j : Nat) :
    Event.entries (between log i j) = between (Event.entries log) i j := by
  unfold Event.entries
  rw [LogReader.map_between, LogReader.map_between]

theorem Event.entries_prefix {log log' : List Event} (h : log <+: log') : Event.entries log <+: Event.entries log' :=
  (h.map _).map _

/-- The rows of the account stand at a position of the log, whose cursor is stored: the changes before it since
`start` are applied to `base`, and of those after it some that will be applied again. -/
def Tracks (token : Nat → Cursor) (account : AccountId) (base : FileId → Option Metadata) (start : Nat)
    (log : List Event) (db : Database) : Prop :=
  ∃ pos reach, db.cursorOf account = some (token pos) ∧
    Behind (Cell.plain Metadata) base start (Event.entries log) pos reach (db.metadataOf account)

theorem Tracks.grow {log log' : List Event} {db : Database} (h : Tracks token account base start log db)
    (hlog : log <+: log') : Tracks token account base start log' db := by
  obtain ⟨pos, reach, hcur, hbehind⟩ := h
  exact ⟨pos, reach, hcur, hbehind.grow (Event.entries_prefix hlog)⟩

/-- The changes between `start` and a position not before `len` are applied to `base`, and nothing else is. -/
def CaughtUp (token : Nat → Cursor) (account : AccountId) (base : FileId → Option Metadata) (start len : Nat)
    (w : World (List Event)) : Prop :=
  ∃ n, start ≤ n ∧ len ≤ n ∧ n ≤ w.remote.length ∧ w.db.cursorOf account = some (token n) ∧
    w.db.metadataOf account = (Cell.plain Metadata).replay base (Event.entries (between w.remote start n))

/-- The log only grows while a sync runs. -/
theorem handler_grows {env : Env (List Event)} (hlog : env.remote.Logged token) (log : List Event) (β : Type)
    (o : SyncOp β) (w : World (List Event)) (hw : log <+: w.remote) : log <+: (handler env β o w).2.remote := by
  have htick : log <+: env.remote.advance w.step w.remote := hw.trans (hlog.appends _ _)
  cases o with
  | listFolder path => exact htick
  | getChanges cursor => exact htick
  | withConn f =>
    cases hf : env.dbFault w.step with
    | some e =>
      rw [handler_withConn_fault f hf]
      exact htick
    | none =>
      rw [handler_withConn_run f hf]
      exact htick

/-- The first changes of a page are a part of the log. -/
theorem entries_of_prefix {log : List Event} {changes p : List Change} {pos m : Nat} (hm : pos + m ≤ log.length)
    (hchanges : entries changes = Event.entries ((log.drop pos).take m)) (hp : p <+: changes) :
    p.length ≤ m ∧ entries p = between (Event.entries log) pos (pos + p.length) := by
  have hpage : entries changes = between (Event.entries log) pos (pos + m) := by
    rw [hchanges, ← Event.entries_between]
    unfold between
    rw [Nat.add_sub_cancel_left]
  have hlen : p.length ≤ m := by
    have hle : (entries p).length ≤ (entries changes).length := (hp.map _).length_le
    rw [hpage, LogReader.length_between (by rw [Event.length_entries]; exact hm)] at hle
    unfold entries at hle
    rw [List.length_map] at hle
    omega
  refine ⟨hlen, ?_⟩
  have htake : entries p = (entries changes).take p.length := by
    obtain ⟨q, rfl⟩ := hp
    rw [entries_append, List.take_append_of_le_length (by unfold entries; rw [List.length_map]),
      List.take_of_length_le (by unfold entries; rw [List.length_map])]
  rw [htake, hpage]
  unfold between
  rw [List.take_take, Nat.add_sub_cancel_left, Nat.add_sub_cancel_left, Nat.min_eq_left hlen]

/-- The page loop: wherever it stops the rows track the log, and when it returns they have caught up with the log as
it was when the loop began. -/
theorem pageLoop_tracks {env : Env (List Event)} (hlog : env.remote.Logged token) :
    ∀ (fuel total pos reach : Nat) (w : World (List Event)), w.db.cursorOf account = some (token pos) →
      Behind (Cell.plain Metadata) base start (Event.entries w.remote) pos reach (w.db.metadataOf account) →
      Triple (handler env) (fun w' => Tracks token account base start w'.remote w'.db) w
        (pageLoop account fuel (token pos) total) fun r w' =>
          ∀ n, r = .ok n → CaughtUp token account base start w.remote.length w'
  | 0, total, pos, reach, w, hcur, hbehind => Triple.throw ⟨pos, reach, hcur, hbehind⟩ fun n h => of_error_eq_ok h
  | fuel + 1, total, pos, reach, w, hcur, hbehind => by
    -- `log` is the log when the page is fetched
    obtain ⟨log, hfetch⟩ : ∃ log, log = env.remote.advance w.step w.remote := ⟨_, rfl⟩
    have hgrow : w.remote <+: log := hfetch ▸ hlog.appends _ _
    have hbehind' := hbehind.grow (Event.entries_prefix hgrow)
    have hpos : pos ≤ log.length := by
      rw [← Event.length_entries]
      exact hbehind'.applied.trans hbehind'.known
    obtain ⟨page, m, hpage, hm, -, hchanges, hcursor, hmore⟩ := hlog.after log pos hpos
    have hacc := Database.account_of_cursor hcur
    have hmlen : pos + m ≤ (Event.entries log).length := by rw [Event.length_entries]; exact hm
    -- the positions of this page: a prefix of it under the old cursor
    have happlied : ∀ p db, p <+: page.changes → db.cursorOf account = some (token pos) →
        Replayed account ([] ++ entries p) w.db db → Tracks token account base start log db := by
      intro p db hp hdb hrep
      obtain ⟨hlen, hentries⟩ := entries_of_prefix hm hchanges hp
      refine ⟨pos, max reach (pos + p.length), hdb, ?_⟩
      rw [hrep.metadata, List.nil_append, hentries]
      exact hbehind'.apply (by omega)
    -- or all of it under its own cursor
    have hstored : ∀ db, db.cursorOf account = some page.cursor → Replayed account (entries page.changes) w.db db →
        Behind (Cell.plain Metadata) base start (Event.entries log) (pos + m) (max reach (pos + m))
          (db.metadataOf account) := by
      intro db hdb hrep
      have hall : entries page.changes = between (Event.entries log) pos (pos + m) := by
        rw [hchanges, ← Event.entries_between]
        unfold between
        rw [Nat.add_sub_cancel_left]
      rw [hrep.metadata, hall]
      exact hbehind'.commit (Nat.le_add_right _ _) hmlen
    have hkeep : ∀ {w' : World (List Event)}, Tracks token account base start log w'.db ∧ log <+: w'.remote →
        Tracks token account base start w'.remote w'.db := fun h => h.1.grow h.2
    unfold pageLoop
    refine Triple.bind (R := fun r w' => w' = w.tick env w.db ∧ ∀ cl, r = .ok cl → cl = page) ?_ ?_ ?_
    · refine triple_call ⟨pos, reach, hcur, hbehind⟩ ?_ rfl (fun e he => ⟨rfl, fun cl h => of_error_eq_ok h⟩)
        fun cl hcl => ⟨rfl, fun cl' h => ?_⟩
      · refine Tracks.grow ⟨pos, reach, hcur, hbehind⟩ ?_
        exact hlog.appends _ _
      · rw [← hfetch, hpage] at hcl
        exact (Except.ok.inj h).symm.trans (Except.ok.inj hcl).symm
    · rintro cl w₁ - ⟨rfl, hcl⟩
      obtain rfl := hcl cl rfl
      have hremote : log <+: (w.tick env w.db).remote := by rw [hfetch]; exact List.prefix_refl _
      refine Triple.bind (((changes_triple (w := w.tick env w.db) cl.changes total hacc hcur
        (Replayed.refl account w.db) happlied).frame
        (handler_grows hlog log) hremote).mono fun _ => hkeep) ?_ fun e w₂ _ _ n h => of_error_eq_ok h
      rintro n w₂ - ⟨⟨rfl, hc₂, hr₂⟩, hlog₂⟩
      rw [List.nil_append] at hr₂
      refine Triple.bind (((upsertCursor_triple cl.cursor (hr₂.accounts ▸ hacc)
        (happlied _ _ (List.prefix_refl _) hc₂ hr₂) fun db hdb hr => ⟨_, _, hcursor ▸ hdb, hstored db hdb ?_⟩).frame
        (handler_grows hlog log) hlog₂).mono fun _ => hkeep) ?_ fun e w₃ _ _ n h => of_error_eq_ok h
      · have hall := hr₂.trans hr
        rwa [List.append_nil] at hall
      rintro ⟨⟩ w₃ hI ⟨⟨-, hc₃, hr₃⟩, hlog₃⟩
      have hall := hr₂.trans hr₃
      rw [List.append_nil] at hall
      have hbehind₃ := hstored w₃.db hc₃ hall
      have hlen₃ := hlog₃.length_le
      by_cases hlast : cl.hasMore = true
      · simp only [hlast, Bool.not_true]
        rw [hcursor] at hc₃ ⊢
        refine (pageLoop_tracks hlog fuel (total + cl.changes.length) (pos + m) _ w₃ hc₃
          (hbehind₃.grow (Event.entries_prefix hlog₃))).conseq fun result w' _ hpost total' hok => ?_
        obtain ⟨n, hstart, hlen, hn, hcaught⟩ := hpost total' hok
        exact ⟨n, hstart, (hgrow.length_le.trans hlen₃).trans hlen, hn, hcaught⟩
      · simp only [hlast, Bool.not_false, if_true]
        -- the last page ends where the log ended when it was fetched, after everything applied before
        rw [hmore, decide_eq_true_eq] at hlast
        have hend : pos + m = log.length := by omega
        have hreach : max reach (pos + m) = pos + m := by
          have hknown := hbehind.known
          rw [Event.length_entries] at hknown
          have hle := hgrow.length_le
          omega
        rw [hreach] at hbehind₃
        refine Triple.pure hI fun _ _ =>
          ⟨pos + m, hbehind₃.started, by rw [hend]; exact hgrow.length_le, by omega, ?_, ?_⟩
        · rw [hc₃, hcursor]
        · rw [hbehind₃.eq_replay, ← Event.entries_between, LogReader.between_of_prefix hlog₃ hm]
    · rintro e w₁ - - n h
      cases h

/-- An incremental sync from a stored cursor. -/
theorem incrementalSync_tracks {env : Env (List Event)} (hlog : env.remote.Logged token) (fuel : Nat)
    {w : World (List Event)} (h : Tracks token account base start w.remote w.db) :
    Triple (handler env) (fun w' => Tracks token account base start w'.remote w'.db) w
      (incrementalSync fuel account) fun r w' =>
        ∀ n, r = .ok n → CaughtUp token account base start w.remote.length w' := by
  obtain ⟨pos, reach, hcur, hbehind⟩ := h
  have hgrow : w.remote <+: env.remote.advance w.step w.remote := hlog.appends _ _
  have htick : Tracks token account base start (w.tick env w.db).remote w.db :=
    Tracks.grow ⟨pos, reach, hcur, hbehind⟩ hgrow
  unfold incrementalSync
  refine Triple.bind (R := fun r w' => ∀ cursor, r = .ok cursor → cursor = some (token pos) ∧ w' = w.tick env w.db)
    ?_ ?_ fun e w₁ _ _ n h => of_error_eq_ok h
  · refine triple_withConn ⟨pos, reach, hcur, hbehind⟩ (fun e he => ⟨htick, fun _ h => of_error_eq_ok h⟩)
      fun r db hr => ?_
    rw [getCursor_eq, hcur] at hr
    obtain ⟨hread, hdb⟩ := Prod.mk.inj hr
    subst hread hdb
    exact ⟨htick, fun cursor h => ⟨(Except.ok.inj h).symm, rfl⟩⟩
  · rintro cursor w₁ - hread
    obtain ⟨rfl, rfl⟩ := hread cursor rfl
    refine (pageLoop_tracks hlog fuel 0 pos reach (w.tick env w.db) hcur
      (hbehind.grow (Event.entries_prefix hgrow))).conseq fun result w' _ hpost total hok => ?_
    obtain ⟨n, hstart, hlen, hn, hcaught⟩ := hpost total hok
    exact ⟨n, hstart, hgrow.length_le.trans hlen, hn, hcaught⟩

end

/-! ## The thread -/

/-- Where the thread is: before its initial sync, at the head of its loop, in its sleep, after it, or returned. -/
inductive SyncPhase
  | starting
  | head
  | sleeping
  | awake
  | stopped
deriving DecidableEq

/-- A sync of the thread: the world it began in, its result, and the world it left. -/
structure SyncRound (π : Type) where
  start : World π
  result : Except SyncError Nat
  finish : World π

/-- The thread of `start_background_sync` with its stop flag, and the syncs it has run. -/
structure SyncThread (π : Type) where
  world : World π
  stopFlag : Bool
  phase : SyncPhase
  rounds : List (SyncRound π)

/-- What happens next: the handle is stopped or dropped, time passes at the provider, the thread gets no runtime, or
it makes a step; `timeUp` says whether its sleep is over, `fuel` bounds the pages of an incremental sync. -/
inductive ThreadEvent
  | stop
  | elapse
  | noRuntime
  | step (timeUp : Bool) (fuel : Nat)

/-- The steps a stopped thread has left. -/
def SyncPhase.left : SyncPhase → Nat
  | .starting | .sleeping => 2
  | .head | .awake => 1
  | .stopped => 0

namespace SyncThread

section

variable {π : Type} (env : Env π) (account : AccountId)

def spawn (world : World π) : SyncThread π := ⟨world, false, .starting, []⟩

/-- A sync from a world. -/
def roundOf (program : SyncM Nat) (world : World π) : SyncRound π :=
  ⟨world, (exec (handler env) program world).1, (exec (handler env) program world).2⟩

/-- A sync is run to its end; an error is only logged. -/
def sync (program : SyncM Nat) (t : SyncThread π) : SyncThread π :=
  { t with
    world := (roundOf env program t.world).finish
    phase := .head
    rounds := t.rounds ++ [roundOf env program t.world] }

def step : ThreadEvent → SyncThread π → SyncThread π
  | .stop, t => { t with stopFlag := true }
  | .elapse, t => { t with world := t.world.tick env t.world.db }
  | .noRuntime, t => match t.phase with
    | .starting => { t with phase := .stopped }
    | _ => t
  | .step timeUp fuel, t => match t.phase with
    -- the first sync does not look at the flag
    | .starting => t.sync env (initialSync account)
    | .head => { t with phase := if t.stopFlag then .stopped else .sleeping }
    | .sleeping =>
      if timeUp then { t with phase := .awake }
      else { t with phase := if t.stopFlag then .stopped else .sleeping }
    | .awake => if t.stopFlag then { t with phase := .stopped } else t.sync env (incrementalSync fuel account)
    | .stopped => t

def run (events : List ThreadEvent) (t : SyncThread π) : SyncThread π :=
  events.foldl (fun t e => t.step env account e) t

variable {env account}

/-- What a step of the thread does: it runs a sync, or it leaves the database and the syncs as they are. -/
theorem step_cases (e : ThreadEvent) (t : SyncThread π) :
    (t.phase = .starting ∧ t.step env account e = t.sync env (initialSync account)) ∨
      (∃ fuel, t.phase = .awake ∧ t.stopFlag = false ∧
        t.step env account e = t.sync env (incrementalSync fuel account)) ∨
      ((t.step env account e).world.db = t.world.db ∧ (t.step env account e).rounds = t.rounds ∧
        ((t.step env account e).world.remote = t.world.remote ∨
          (t.step env account e).world.remote = env.remote.advance t.world.step t.world.remote) ∧
        (t.phase ≠ .starting → (t.step env account e).phase ≠ .starting)) := by
  obtain ⟨world, stopFlag, phase, rounds⟩ := t
  cases e with
  | stop => exact .inr (.inr ⟨rfl, rfl, .inl rfl, id⟩)
  | elapse => exact .inr (.inr ⟨rfl, rfl, .inr rfl, id⟩)
  | noRuntime =>
    cases phase with
    | starting => exact .inr (.inr ⟨rfl, rfl, .inl rfl, fun h => absurd rfl h⟩)
    | head | sleeping | awake | stopped => exact .inr (.inr ⟨rfl, rfl, .inl rfl, id⟩)
  | step timeUp fuel =>
    cases phase with
    | starting => exact .inl ⟨rfl, rfl⟩
    | head =>
      refine .inr (.inr ⟨rfl, rfl, .inl rfl, fun _ => ?_⟩)
      cases stopFlag <;> exact SyncPhase.noConfusion
    | sleeping =>
      cases timeUp
      · refine .inr (.inr ⟨rfl, rfl, .inl rfl, fun _ => ?_⟩)
        cases stopFlag <;> exact SyncPhase.noConfusion
      · exact .inr (.inr ⟨rfl, rfl, .inl rfl, fun _ => SyncPhase.noConfusion⟩)
    | awake =>
      cases stopFlag
      · exact .inr (.inl ⟨fuel, rfl, rfl, rfl⟩)
      · exact .inr (.inr ⟨rfl, rfl, .inl rfl, fun _ => SyncPhase.noConfusion⟩)
    | stopped => exact .inr (.inr ⟨rfl, rfl, .inl rfl, id⟩)

end

/-! ## Rounds that end well -/

/-- A round has delivered the changes since the position `start`: those up to a position that is not before the end of
the log when the round began. A file with a change among them has the metadata it has at the provider, or no row if it
is deleted there; every other file is as it was in `base`. -/
def Delivered (token : Nat → Cursor) (account : AccountId) (base : FileId → Option Metadata) (start : Nat)
    (round : SyncRound (List Event)) : Prop :=
  ∃ n, round.start.remote.length ≤ n ∧ n ≤ round.finish.remote.length ∧
    round.finish.db.cursorOf account = some (token n) ∧
    ∀ id, ((∃ event ∈ between round.finish.remote start n, event.fileId = id) →
        round.finish.db.metadataOf account id = liveMetadata (round.finish.remote.take n) id) ∧
      ((¬ ∃ event ∈ between round.finish.remote start n, event.fileId = id) →
        round.finish.db.metadataOf account id = base id)

section

variable {env : Env (List Event)} {token : Nat → Cursor} {account : AccountId} {base : FileId → Option Metadata}
  {start : Nat}

theorem delivered_of_caughtUp {w : World (List Event)} {result : Except SyncError Nat} {w' : World (List Event)}
    (h : CaughtUp token account base start w.remote.length w') :
    Delivered token account base start ⟨w, result, w'⟩ := by
  obtain ⟨n, hstart, hlen, hn, hcur, hmeta⟩ := h
  refine ⟨n, hlen, hn, hcur, fun id => ⟨fun htouched => ?_, fun huntouched => ?_⟩⟩
  · have hsplit : w'.remote.take n = w'.remote.take start ++ between w'.remote start n := by
      have h0 := @LogReader.between_append _ w'.remote _ _ _ (Nat.zero_le start) hstart
      unfold between at h0 ⊢
      rw [List.drop_zero, Nat.sub_zero, Nat.sub_zero] at h0
      exact h0.symm
    show w'.db.metadataOf account id = liveMetadata (w'.remote.take n) id
    rw [hmeta, hsplit, liveMetadata_append]
    exact KeyedLog.replay_plain_touched _ _ (exists_touches.2 htouched)
  · show w'.db.metadataOf account id = base id
    rw [hmeta]
    refine Cell.replay_untouched _ _ fun e he htouch => huntouched ?_
    exact exists_touches.1 ⟨e, he, htouch⟩

/-- What holds of the thread between its syncs, once a cursor is stored. -/
structure Tracking (token : Nat → Cursor) (account : AccountId) (base : FileId → Option Metadata) (start : Nat)
    (db : Database) (old : List (SyncRound (List Event))) (t : SyncThread (List Event)) : Prop where
  started : t.phase ≠ .starting
  tracks : Tracks token account base start t.world.remote t.world.db
  rounds : ∃ new, t.rounds = old ++ new ∧ t.world.db = ((new.getLast?).map fun round => round.finish.db).getD db ∧
    ∀ round ∈ new, ∀ n, round.result = .ok n → Delivered token account base start round

theorem Tracking.step {db : Database} {old : List (SyncRound (List Event))} {t : SyncThread (List Event)}
    (hlog : env.remote.Logged token) (h : Tracking token account base start db old t) (e : ThreadEvent) :
    Tracking token account base start db old (t.step env account e) := by
  obtain ⟨new, hrounds, hdb, hdelivered⟩ := h.rounds
  rcases @step_cases _ env account e t with ⟨hphase, -⟩ | ⟨fuel, hphase, -, hstep⟩ |
    ⟨hdb', hrounds', hremote, hphase⟩
  · exact absurd hphase h.started
  · have htriple := incrementalSync_tracks hlog fuel h.tracks
    rw [hstep]
    refine ⟨SyncPhase.noConfusion, htriple.last,
      new ++ [roundOf env (incrementalSync fuel account) t.world], ?_, ?_, ?_⟩
    · show t.rounds ++ _ = _
      rw [hrounds, List.append_assoc]
    · rw [List.getLast?_concat]
      rfl
    · intro round hround n hok
      rcases List.mem_append.1 hround with hround | hround
      · exact hdelivered round hround n hok
      · obtain rfl := List.mem_singleton.1 hround
        have hpost := htriple.post
        exact delivered_of_caughtUp (hpost n hok)
  · refine ⟨hphase h.started, ?_, new, hrounds'.trans hrounds, hdb'.trans hdb, hdelivered⟩
    rw [hdb']
    rcases hremote with hremote | hremote
    · rw [hremote]
      exact h.tracks
    · rw [hremote]
      exact h.tracks.grow (hlog.appends _ _)

theorem Tracking.run {db : Database} {old : List (SyncRound (List Event))} {t : SyncThread (List Event)}
    (hlog : env.remote.Logged token) (h : Tracking token account base start db old t) (events : List ThreadEvent) :
    Tracking token account base start db old (t.run env account events) := by
  induction events generalizing t with
  | nil => exact h
  | cons e events ih => exact ih (h.step hlog e)

end

/-- From the moment the thread has run its initial sync and a cursor is stored: whatever the provider, the network and
the database do, and whenever the thread is stopped, every incremental sync that ends well has delivered all changes
since that cursor which the provider had when the sync began, over what the initial sync left, and between the syncs
the database is the one the last of them left. -/
theorem rounds_deliver (env : Env (List Event)) (token : Nat → Cursor) (hlog : env.remote.Logged token)
    (account : AccountId) (s : SyncThread (List Event)) (hphase : s.phase ≠ .starting) (start : Nat)
    (hcur : s.world.db.cursorOf account = some (token start)) (hstart : start ≤ s.world.remote.length)
    (events : List ThreadEvent) :
    ∃ new, (s.run env account events).rounds = s.rounds ++ new ∧
      (s.run env account events).world.db = ((new.getLast?).map fun round => round.finish.db).getD s.world.db ∧
      ∀ round ∈ new, ∀ n, round.result = .ok n →
        Delivered token account (s.world.db.metadataOf account) start round := by
  have hbegin : Tracking token account (s.world.db.metadataOf account) start s.world.db s.rounds s :=
    ⟨hphase, ⟨start, start, hcur, .initial (by rw [Event.length_entries]; exact hstart)⟩, [],
      (List.append_nil _).symm, rfl, List.forall_mem_nil _⟩
  exact (hbegin.run hlog events).rounds

/-- A provider that gets a file after the initial sync. -/
def lateFile : Env (List Event) :=
  Env.calm (Remote.ofLog fun n => if n = 3 then [.put (sampleItem ['f'] ['n'])] else [])

def sampleThread : SyncThread (List Event) :=
  (spawn ⟨Database.empty [sampleAccount], [], 0⟩).run lateFile sampleAccount [.step false 0, .elapse]

theorem rounds_deliver_sample :
    ∃ round, (sampleThread.run lateFile sampleAccount [.step false 0, .step true 0, .step false 2]).rounds =
        sampleThread.rounds ++ [round] ∧
      Delivered position sampleAccount (sampleThread.world.db.metadataOf sampleAccount) 0 round := by
  obtain ⟨new, hrounds, -, hdelivered⟩ := rounds_deliver lateFile position (Remote.ofLog_logged _) sampleAccount
    sampleThread SyncPhase.noConfusion 0 rfl (Nat.zero_le _) [.step false 0, .step true 0, .step false 2]
  obtain ⟨round, hround, n, hok⟩ : ∃ round, new = [round] ∧ ∃ n, round.result = .ok n :=
    ⟨_, (List.append_cancel_left hrounds).symm, 1, rfl⟩
  subst hround
  exact ⟨round, hrounds, hdelivered round (List.mem_singleton_self _) n hok⟩

/-! ## Stopping -/

section

variable {π : Type} {env : Env π} {account : AccountId}

/-- What a stopped thread has done since: nothing, or the initial sync it had not begun. -/
def Quits (env : Env π) (account : AccountId) (t t' : SyncThread π) : Prop :=
  t'.stopFlag = true ∧
    ((t'.rounds = t.rounds ∧ t'.world.db = t.world.db ∧ (t'.phase = .starting → t.phase = .starting)) ∨
      (t.phase = .starting ∧ t'.phase ≠ .starting ∧ ∃ w, w.db = t.world.db ∧
        t'.rounds = t.rounds ++ [roundOf env (initialSync account) w] ∧
        t'.world.db = (roundOf env (initialSync account) w).finish.db))

theorem stopFlag_step {t : SyncThread π} (hstop : t.stopFlag = true) (e : ThreadEvent) :
    (t.step env account e).stopFlag = true := by
  obtain ⟨world, stopFlag, phase, rounds⟩ := t
  obtain rfl : stopFlag = true := hstop
  cases e with
  | stop => rfl
  | elapse => rfl
  | noRuntime => cases phase <;> rfl
  | step timeUp fuel => cases phase <;> cases timeUp <;> rfl

theorem Quits.step {t t' : SyncThread π} (h : Quits env account t t') (e : ThreadEvent) :
    Quits env account t (t'.step env account e) := by
  obtain ⟨hstop, hquits⟩ := h
  refine ⟨stopFlag_step hstop e, ?_⟩
  rcases @step_cases _ env account e t' with ⟨hphase, hstep⟩ | ⟨fuel, -, hflag, -⟩ |
    ⟨hdb, hrounds, -, hphase⟩
  · rcases hquits with ⟨hrounds, hdb, hstarting⟩ | ⟨-, hpast, -⟩
    · refine .inr ⟨hstarting hphase, ?_, t'.world, hdb, ?_, ?_⟩
      · rw [hstep]
        exact SyncPhase.noConfusion
      · rw [hstep, ← hrounds]
        rfl
      · rw [hstep]
        rfl
    · exact absurd hphase hpast
  -- an incremental sync is begun only while the flag is not set
  · rw [hstop] at hflag
    cases hflag
  · rcases hquits with ⟨hrounds', hdb', hstarting⟩ | ⟨hstarting, hpast, w, hw, hrounds', hdb'⟩
    · refine .inl ⟨hrounds.trans hrounds', hdb.trans hdb', fun h => ?_⟩
      by_contra hne
      exact hphase (fun h' => hne (hstarting h')) h
    · exact .inr ⟨hstarting, hphase hpast, w, hw, hrounds.trans hrounds', hdb.trans hdb'⟩

end

end SyncThread

end CloudSync
