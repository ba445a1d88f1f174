/-
The actions of a handler. Over a run of requests, between which others may write the database, the sync loop gets
what the requests ask for and nothing else, unless one pauses or resumes a provider that is not known: the name is
dropped and all providers are paused or resumed.
-/
import CloudSync.Daemon.Confinement
import CloudSync.Daemon.Status

namespace CloudSync

open Ipc (Request Response)

/-- A row of the account has the cloud path. -/
def Database.HasPath (db : Database) (account : AccountId) (cloudPath : CloudPath) : Prop :=
  ∃ r ∈ db.files.rows, r.accountId = account.val ∧ r.path = cloudPath.asStr

instance (db : Database) (account : AccountId) (cloudPath : CloudPath) : Decidable (db.HasPath account cloudPath) :=
  inferInstanceAs (Decidable (∃ r ∈ db.files.rows, _ ∧ _))

/-- The request is to pause or resume a provider that is not known. -/
def Ipc.Request.NamesUnknown (request : Request) : Prop :=
  ∃ slug, ProviderId.fromSlug slug = none ∧ (request = .pauseSync (some slug) ∨ request = .resumeSync (some slug))

namespace DaemonHandler

/-! ## What requests ask for -/

/-- An action for the named provider, if it is known, or for all. -/
def forProvider (action : Option ProviderId → DaemonAction) : Option Str → Option DaemonAction
  | none => some (action none)
  | some slug => (ProviderId.fromSlug slug).map fun provider => action (some provider)

/-- The action a request asks for, if any. -/
def asks (h : DaemonHandler) (db : Database) : Request → Option DaemonAction
  | .forceSync path => match h.resolveAndLookup path with
    | .ok (accountId, cloudPath, _) => some (.force accountId cloudPath)
    | .error _ => none
  | .setPinned path true => match h.resolveAndLookup path with
    | .ok (accountId, cloudPath, _) =>
      if db.HasPath accountId cloudPath then some (.force accountId cloudPath) else none
    | .error _ => none
  | .pauseSync provider => forProvider .pause provider
  | .resumeSync provider => forProvider .resume provider
  | _ => none

/-- A request is handled, or somebody else writes the database. -/
inductive Event
  | request (request : Request)
  | database (db : Database)

def step (env : DaemonEnv) (h : DaemonHandler) : Event → DaemonWorld → DaemonWorld
  | .request request, w => (h.handle env request w).2
  | .database db, w => { w with db := db }

def run (env : DaemonEnv) (h : DaemonHandler) (events : List Event) (w : DaemonWorld) : DaemonWorld :=
  events.foldl (fun w event => h.step env event w) w

/-- What the requests of a run ask for, each of the database it finds. -/
def asked (env : DaemonEnv) (h : DaemonHandler) : List Event → DaemonWorld → List DaemonAction
  | [], _ => []
  | .request request :: events, w =>
    (h.asks w.db request).toList ++ h.asked env events (h.step env (.request request) w)
  | .database db :: events, w => h.asked env events (h.step env (.database db) w)

/-- The actions a request sends. -/
def produced (env : DaemonEnv) (h : DaemonHandler) (request : Request) (w : DaemonWorld) : List DaemonAction :=
  (h.handle env request w).2.sent.drop w.sent.length

/-! ## One request -/

variable {env : DaemonEnv} {h : DaemonHandler} {accountId : AccountId} {cloudPath : CloudPath}

theorem hasPath_iff {db : Database} :
    db.HasPath accountId cloudPath ↔ (firstRow env db accountId cloudPath).isSome = true := by
  unfold firstRow Database.HasPath
  rw [List.find?_isSome]
  refine exists_congr fun r => ?_
  rw [Scan.mem_order, decide_eq_true_eq]

/-- Pinning answers whether there is a row. -/
theorem setPinnedSection_answer (now : DateTime) (db : Database) :
    (setPinnedSection env accountId cloudPath true now db).1 = .ok (firstRow env db accountId cloudPath).isSome := by
  unfold setPinnedSection
  cases hrow : firstRow env db accountId cloudPath with
  | none =>
    rw [DbM.bind_ok (getFileByCloudPath_none now hrow)]
    rfl
  | some r =>
    obtain ⟨f, rfl, hmem, hget⟩ := getFileByCloudPath_some now hrow
    rw [DbM.bind_ok hget]
    simp only [if_true]
    split
    · obtain ⟨db', hdb', -⟩ := updateState_sets hmem .pending now
      rw [DbM.bind_ok hdb']
      rfl
    · rfl

theorem withConn_sent {β : Type} (f : DbM β) (w : DaemonWorld) : (w.withConn env f).2.sent = w.sent := by
  unfold DaemonWorld.withConn
  split <;> rfl

/-- A reply sends nothing but what is still done after a success. -/
theorem replyTo_sent {path : Str} {after : DaemonWorld → DaemonWorld} (hafter : ∀ w, (after w).sent = w.sent)
    (r : Except Abort Bool × DaemonWorld) : (replyTo env path after r).2.sent = r.2.sent := by
  obtain ⟨answer, w⟩ := r
  rcases answer with e | found
  · cases e <;> rfl
  · cases found
    · rfl
    · exact hafter w

/-- A path is pinned, and what is done after it is done, when it has a row. -/
theorem pinned_sent (path : Str) (action : DaemonAction) (w : DaemonWorld) (hfault : env.dbFault w.sections = none) :
    (replyTo env path (h.sendAction action) (w.withConn env (setPinnedSection env accountId cloudPath true))).2.sent =
      if w.db.HasPath accountId cloudPath then (h.sendAction action w).sent else w.sent := by
  have hanswer : (setPinnedSection env accountId cloudPath true (env.clock w.sections) w.db).1 =
      .ok (firstRow env w.db accountId cloudPath).isSome := setPinnedSection_answer _ _
  unfold DaemonWorld.withConn
  rw [hfault]
  simp only [hanswer]
  by_cases hrow : w.db.HasPath accountId cloudPath
  · rw [if_pos hrow, hasPath_iff.1 hrow]
    simp only [replyTo]
    unfold sendAction
    split
    · rfl
    · rfl
  · rw [if_neg hrow, Bool.eq_false_iff.2 (mt hasPath_iff.2 hrow)]
    rfl

theorem sendAction_sent (hopen : h.actionTx = true) (action : DaemonAction) (w : DaemonWorld) :
    (h.sendAction action w).sent = w.sent ++ [action] := by
  unfold sendAction
  rw [if_pos hopen]

/-- What a request sends that it does not ask for. -/
def unasked : Request → List DaemonAction
  | .pauseSync (some slug) => if ProviderId.fromSlug slug = none then [.pause none] else []
  | .resumeSync (some slug) => if ProviderId.fromSlug slug = none then [.resume none] else []
  | _ => []

theorem unasked_eq_nil {request : Request} : unasked request = [] ↔ ¬ request.NamesUnknown := by
  constructor
  · rintro h ⟨slug, hslug, rfl | rfl⟩
    · rw [unasked, if_pos hslug] at h
      cases h
    · rw [unasked, if_pos hslug] at h
      cases h
  · intro hknown
    unfold unasked
    split
    · rename_i slug
      exact if_neg fun hslug => hknown ⟨slug, hslug, .inl rfl⟩
    · rename_i slug
      exact if_neg fun hslug => hknown ⟨slug, hslug, .inr rfl⟩
    · rfl

/-- The provider an action is sent for: an unknown one has become none. -/
theorem forProvider_sent (action : Option ProviderId → DaemonAction) (slug : Str) :
    [action ((some slug).bind ProviderId.fromSlug)] =
      (forProvider action (some slug)).toList ++ if ProviderId.fromSlug slug = none then [action none] else [] := by
  show [action (ProviderId.fromSlug slug)] = ((ProviderId.fromSlug slug).map _).toList ++ _
  cases ProviderId.fromSlug slug with
  | none => rfl
  | some provider => rfl

/-- A request sends what it asks for, and an action for all when it names an unknown provider. -/
theorem handle_sent (hopen : h.actionTx = true) (request : Request) (w : DaemonWorld)
    (hfault : env.dbFault w.sections = none) :
    (h.handle env request w).2.sent = w.sent ++ ((h.asks w.db request).toList ++ unasked request) := by
  cases request with
  | getStatus path =>
    obtain ⟨n, hworld⟩ : ∃ n, (h.getStatusForPath env path w).2 = _ := getStatusForPath_world path w
    exact (congrArg DaemonWorld.sent hworld).trans (List.append_nil _).symm
  | getStatusBatch paths =>
    obtain ⟨n, hworld⟩ : ∃ n, (h.getStatusBatch env paths w).2 = _ := getStatusBatch_world paths w
    exact (congrArg DaemonWorld.sent hworld).trans (List.append_nil _).symm
  | setPinned path pinned =>
    simp only [handle]
    cases hfound : h.resolveAndLookup path with
    | error resp => cases pinned <;> simp only [asks, unasked, hfound] <;> exact (List.append_nil _).symm
    | ok found =>
      obtain ⟨accountId, cloudPath, slug⟩ := found
      cases pinned with
      | false =>
        have hsent : ∀ w : DaemonWorld, w.sent = w.sent := fun _ => rfl
        exact ((replyTo_sent hsent _).trans (withConn_sent _ w)).trans (List.append_nil _).symm
      | true =>
        simp only [asks, hfound, unasked, List.append_nil]
        refine (pinned_sent path _ w hfault).trans ?_
        by_cases hrow : w.db.HasPath accountId cloudPath
        · rw [if_pos hrow, if_pos hrow]
          exact sendAction_sent hopen _ w
        · rw [if_neg hrow, if_neg hrow]
          exact (List.append_nil _).symm
  | setCloudOnly path =>
    simp only [handle]
    cases hfound : h.resolveAndLookup path with
    | error resp => exact (List.append_nil _).symm
    | ok found =>
      have hsent : ∀ w : DaemonWorld, (id w).sent = w.sent := fun _ => rfl
      exact ((replyTo_sent hsent _).trans (withConn_sent _ w)).trans (List.append_nil _).symm
  | forceSync path =>
    simp only [handle, asks]
    cases hfound : h.resolveAndLookup path with
    | error resp => exact (List.append_nil _).symm
    | ok found => exact sendAction_sent hopen _ w
  | pauseSync provider =>
    refine (sendAction_sent hopen _ w).trans (congrArg (w.sent ++ ·) ?_)
    cases provider with
    | none => rfl
    | some slug => exact forProvider_sent .pause slug
  | resumeSync provider =>
    refine (sendAction_sent hopen _ w).trans (congrArg (w.sent ++ ·) ?_)
    cases provider with
    | none => rfl
    | some slug => exact forProvider_sent .resume slug

/-! ## Runs -/

/-- What the requests of the events send that they do not ask for. -/
def allUnasked (events : List Event) : List DaemonAction :=
  events.flatMap fun | .request request => unasked request | .database _ => []

theorem allUnasked_eq_nil {events : List Event} :
    allUnasked events = [] ↔ ∀ request, .request request ∈ events → ¬ request.NamesUnknown := by
  unfold allUnasked
  rw [List.flatMap_eq_nil_iff]
  constructor
  · intro hall request hmem
    exact unasked_eq_nil.1 (hall _ hmem)
  · rintro hall (request | db) hmem
    · exact unasked_eq_nil.2 (hall request hmem)
    · rfl

/-- Over a run the actions sent are those asked for and the unasked ones, in the order of the requests. -/
theorem run_sent (hopen : h.actionTx = true) (hfault : ∀ n, env.dbFault n = none) (events : List Event)
    (w : DaemonWorld) :
    (allUnasked events = [] → (h.run env events w).sent = w.sent ++ h.asked env events w) ∧
      (h.run env events w).sent.length =
        w.sent.length + (h.asked env events w).length + (allUnasked events).length := by
  induction events generalizing w with
  | nil => exact ⟨fun _ => (List.append_nil _).symm, rfl⟩
  | cons event events ih =>
    obtain ⟨ihsent, ihlength⟩ := ih (h.step env event w)
    cases event with
    | request request =>
      have hsent := handle_sent hopen request w (hfault _)
      have hstep : (h.step env (.request request) w).sent = _ := hsent
      have hasked : h.asked env (.request request :: events) w =
        (h.asks w.db request).toList ++ h.asked env events (h.step env (.request request) w) := rfl
      have hunasked : allUnasked (.request request :: events) = unasked request ++ allUnasked events := rfl
      rw [hasked, hunasked]
      constructor
      · intro hnil
        obtain ⟨hnone, hrest⟩ := List.append_eq_nil_iff.1 hnil
        refine (ihsent hrest).trans ?_
        rw [hstep, hnone, List.append_nil, List.append_assoc]
      · refine ihlength.trans ?_
        rw [hstep]
        simp only [List.length_append]
        omega
    | database db => exact ⟨ihsent, ihlength⟩

/-- In every run of a handler with a channel, and whatever others write in between, the actions sent are those the
requests ask for, in order, and no request that names an unknown provider pauses or resumes all, exactly when no
request names one. -/
theorem actions_match_iff (env : DaemonEnv) (h : DaemonHandler) (hopen : h.actionTx = true)
    (hfault : ∀ n, env.dbFault n = none) (events : List Event) (w : DaemonWorld) :
    ((h.run env events w).sent = w.sent ++ h.asked env events w ∧
      ∀ request, .request request ∈ events → request.NamesUnknown → ∀ w',
        .pause none ∉ h.produced env request w' ∧ .resume none ∉ h.produced env request w') ↔
    ∀ request, .request request ∈ events → ¬ request.NamesUnknown := by
  obtain ⟨hsent, hlength⟩ := run_sent hopen hfault events w
  rw [← allUnasked_eq_nil]
  constructor
  · rintro ⟨hmatch, -⟩
    rw [hmatch, List.length_append] at hlength
    exact List.eq_nil_of_length_eq_zero (by omega)
  · intro hnil
    exact ⟨hsent hnil, fun request hmem hunknown => absurd hunknown (allUnasked_eq_nil.1 hnil request hmem)⟩

/-- A handler with a channel, and a database where nothing fails. -/
def channelHandler : DaemonHandler := { oneAccount with actionTx := true }

def faultless : DaemonEnv := ⟨.byRowid, fun _ => [], fun _ => DateTime.epoch, fun _ => none⟩

/-- A file is pinned, a path without a row is not, and the known provider is paused. -/
theorem actions_match_sample :
    (channelHandler.run faultless [.request (.setPinned "/r/gdrive/n".toList true),
        .request (.setPinned "/r/gdrive/m".toList true), .request (.forceSync "/r/gdrive/m".toList),
        .request (.pauseSync (some "gdrive".toList)), .request (.resumeSync none)] ⟨oneFile ['n'], 0, []⟩).sent =
      [.force ⟨['a']⟩ (CloudPath.new ['n']), .force ⟨['a']⟩ (CloudPath.new ['m']), .pause (some .googleDrive),
        .resume none] := by
  refine ((actions_match_iff faultless channelHandler rfl (fun _ => rfl) _ _).2 ?_).1.trans (by decide +kernel)
  rintro request hmem ⟨slug, hslug, heq⟩
  simp only [List.mem_cons, Event.request.injEq, List.not_mem_nil, or_false] at hmem
  rcases hmem with rfl | rfl | rfl | rfl | rfl
  all_goals rcases heq with heq | heq
  all_goals cases heq
  exact absurd hslug (by decide)

/-- To pause an unknown provider pauses all. -/
theorem unknown_provider_pauses_all :
    (channelHandler.run faultless [.request (.pauseSync (some "box".toList))] ⟨oneFile ['n'], 0, []⟩).sent =
        [.pause none] ∧
      channelHandler.asked faultless [.request (.pauseSync (some "box".toList))] ⟨oneFile ['n'], 0, []⟩ = [] := by
  decide +kernel

end DaemonHandler

end CloudSync
