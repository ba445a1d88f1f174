/-
The accounts the daemon answers for. At its start it loads the active accounts, newest first, and a path under a
provider is one of the newest active account of that provider, for as long as the daemon runs; if that account is
deleted meanwhile, its paths are not found.
-/
import CloudSync.Daemon.Handler
import CloudSync.Db.AccountRows

namespace CloudSync

open Ipc (Request)

/-- The accounts that `main` loads for the path resolution; without them if the database fails. -/
def loadProviderAccounts (scan : AccountScan) (fault : Fault) (now : DateTime) (s : AccountStore) :
    Option (List (Str × AccountId)) :=
  match (listAccounts scan true fault now s).1 with
  | .ok accounts => some (accounts.map fun a => (a.provider.asStr, a.id))
  | .error (.err _) => some []
  | .error .panic => none

/-- In a sorted list the first element of a kind comes before every other of its kind. -/
theorem rel_of_find?_eq_some {α : Type} {r : α → α → Prop} (hrefl : ∀ a, r a a) {l : List α} (h : l.Pairwise r)
    {p : α → Bool} {a b : α} (ha : l.find? p = some a) (hb : b ∈ l) (hpb : p b = true) : r a b := by
  obtain ⟨-, before, after, rfl, hbefore⟩ := List.find?_eq_some_iff_append.1 ha
  rcases List.mem_append.1 hb with hb | hb
  · have hnot := hbefore b hb
    rw [hpb] at hnot
    cases hnot
  · rcases List.mem_cons.1 hb with rfl | hb
    · exact hrefl b
    · exact List.rel_of_pairwise_cons (List.pairwise_append.1 h).2.1 hb

namespace DaemonHandler

/-- An active account of the provider with the slug. -/
def Serves (book : AccountBook) (slug : Str) (id : AccountId) (a : Account) : Prop :=
  book id = some a ∧ a.isActive = true ∧ a.provider.asStr = slug

/-- A daemon that was started on a database resolves a slug exactly when an active account is of the provider, and
then to one that no other active account of the provider is newer than. -/
theorem lookupAccount_newest (resolver : PathResolver) (actionTx : Bool) (scan : AccountScan) (now : DateTime)
    (s : AccountStore) :
    ∃ accounts, loadProviderAccounts scan none now s = some accounts ∧ ∀ slug,
      (lookupAccount ⟨resolver, accounts, actionTx⟩ slug = none ↔ ∀ id a, ¬ Serves s.accountAt slug id a) ∧
      ∀ id, lookupAccount ⟨resolver, accounts, actionTx⟩ slug = some id → ∃ a, Serves s.accountAt slug id a ∧
        ∀ id' b, Serves s.accountAt slug id' b → b.createdAt.timestamp ≤ a.createdAt.timestamp := by
  obtain ⟨accounts, haccounts, hlists⟩ := listAccounts_lists scan true s.accounts
  have hload : loadProviderAccounts scan none now s = some (accounts.map fun a => (a.provider.asStr, a.id)) := by
    unfold loadProviderAccounts listAccounts StoreM.unlessFault
    simp only
    rw [haccounts]
  refine ⟨_, hload, fun slug => ?_⟩
  -- the listed accounts are those that serve their slugs
  have hmem : ∀ {a}, a ∈ accounts ∧ a.provider.asStr = slug ↔ Serves s.accountAt slug a.id a := by
    intro a
    rw [hlists.mem a]
    exact ⟨fun h => ⟨h.1.1, h.1.2 rfl, h.2⟩, fun h => ⟨⟨h.1, fun _ => h.2.1⟩, h.2.2⟩⟩
  have hid : ∀ {id a}, Serves s.accountAt slug id a → a.id = id := by
    rintro id a ⟨ha, -⟩
    obtain ⟨g, -, hid, rfl⟩ := AccountsTable.accountAt_eq_some.1 ha
    exact hid
  have hlookup : lookupAccount ⟨resolver, accounts.map fun a => (a.provider.asStr, a.id), actionTx⟩ slug =
      (accounts.find? fun a => a.provider.asStr = slug).map Account.id := by
    unfold lookupAccount
    rw [List.find?_map, Option.map_map]
    rfl
  rw [hlookup]
  constructor
  · rw [Option.map_eq_none_iff, List.find?_eq_none]
    constructor
    · intro hnone id a ha
      have hsame := hid ha
      obtain ⟨hlisted, hslug⟩ := hmem.2 (hsame ▸ ha)
      exact hnone a hlisted (decide_eq_true hslug)
    · intro hnone a hlisted hslug
      exact hnone a.id a (hmem.1 ⟨hlisted, of_decide_eq_true hslug⟩)
  · intro id hsome
    obtain ⟨a, hfind, rfl⟩ := Option.map_eq_some_iff.1 hsome
    have hslug : a.provider.asStr = slug := by simpa using List.find?_some hfind
    refine ⟨a, hmem.1 ⟨List.mem_of_find?_eq_some hfind, hslug⟩, fun id' b hb => ?_⟩
    have hsame := hid hb
    obtain ⟨hlisted, hb⟩ := hmem.2 (hsame ▸ hb)
    exact rel_of_find?_eq_some (r := fun a b : Account => b.createdAt.timestamp ≤ a.createdAt.timestamp)
      (fun a => le_refl _) hlists.newestFirst hfind hlisted (decide_eq_true hb)

/-- The requests that read or write the row at a path. -/
inductive AtPath (path : Str) : Request → Prop
  | getStatus : AtPath path (.getStatus path)
  | setPinned (pinned : Bool) : AtPath path (.setPinned path pinned)
  | setCloudOnly : AtPath path (.setCloudOnly path)

/-- A request for a path of an account without rows finds no file and changes nothing. -/
theorem handle_without_rows {env : DaemonEnv} {h : DaemonHandler} {w : DaemonWorld} {path slug : Str}
    {account : AccountId} {cloudPath : CloudPath} {request : Request}
    (hresolve : h.pathResolver.resolveLocal path = some ⟨slug, cloudPath⟩)
    (haccount : h.lookupAccount slug = some account) (hrows : w.db.rowsOf account = [])
    (hfault : env.dbFault w.sections = none) (hrequest : AtPath path request) :
    h.handle env request w = (some (fileNotFound path), { w with sections := w.sections + 1 }) := by
  have hpath : h.resolveAndLookup path = .ok (account, cloudPath, slug) := by
    unfold resolveAndLookup
    simp only [hresolve, haccount]
  have hnone : getFileByCloudPath env.scan account cloudPath (env.clock w.sections) w.db = (.ok none, w.db) := by
    unfold getFileByCloudPath
    rw [Database.find_rowsOf hrows (fun r hr => Scan.mem_order.1 hr) fun r hr => (of_decide_eq_true hr).1]
  cases hrequest with
  | getStatus =>
    unfold handle getStatusForPath DaemonWorld.withConn
    simp only [hpath, hfault, hnone]
  | setPinned pinned =>
    have hsection : setPinnedSection env account cloudPath pinned (env.clock w.sections) w.db = (.ok false, w.db) :=
      DbM.bind_ok hnone
    unfold handle DaemonWorld.withConn
    simp only [hpath, hfault, hsection]
    rfl
  | setCloudOnly =>
    have hsection : setCloudOnlySection env account cloudPath (env.clock w.sections) w.db = (.ok false, w.db) :=
      DbM.bind_ok hnone
    unfold handle DaemonWorld.withConn
    simp only [hpath, hfault, hsection]
    rfl

/-- The account a daemon answers for is deleted while the daemon runs. From then on, whatever calls the database
gets, and as long as no account of its id is created, every request for a path under the provider is answered that
the file is not found, and changes no table: never with the file of another account of the provider. -/
theorem deleted_account_not_found (h : DaemonHandler) (slug : Str) (id : AccountId)
    (hid : h.lookupAccount slug = some id) (s : AccountStore) (deletedAt : DateTime) (steps : List StoreStep)
    (hsteps : ∀ step ∈ steps, ∀ account, step.call = .createAccount account → account.id ≠ id) (env : DaemonEnv)
    (w : DaemonWorld) (hw : w.db = ((deleteAccount id none deletedAt s).2.run steps).2.tables)
    (hfault : env.dbFault w.sections = none) (path : Str) (cloudPath : CloudPath)
    (hpath : h.pathResolver.resolveLocal path = some ⟨slug, cloudPath⟩) (request : Request)
    (hrequest : AtPath path request) :
    h.handle env request w = (some (fileNotFound path), { w with sections := w.sections + 1 }) := by
  have hrows : w.db.rowsOf id = [] := by
    rw [hw]
    exact (AccountStore.delete_final id deletedAt s _ rfl steps hsteps).2.1.2.1
  exact handle_without_rows hpath hid hrows hfault hrequest

/-- The daemon of a database with a drive account. -/
def annsDaemon : DaemonHandler := ⟨⟨['/', 'r']⟩, [("gdrive".toList, ann.id)], false⟩

/-- Another account of the provider, with a file at the same path. -/
def carol : Account :=
  .new DateTime.epoch ⟨['c']⟩ .googleDrive "carol@mail".toList ['t'] none none

def carolsSteps : List StoreStep :=
  [⟨.createAccount carol, none, DateTime.epoch⟩,
    ⟨.tables (.createFile { report with accountId := carol.id }), none, DateTime.epoch⟩]

/-- The other account is created after the deletion, and its file is not found for the deleted one's. -/
theorem deleted_account_not_found_sample :
    (annsDaemon.handle ⟨.byRowid, fun _ => [], fun _ => DateTime.epoch, fun _ => none⟩
      (.getStatus "/r/gdrive/docs/report.pdf".toList)
      ⟨((deleteAccount ann.id none DateTime.epoch annAndBob).2.run carolsSteps).2.tables, 0, []⟩).1 =
      some (fileNotFound "/r/gdrive/docs/report.pdf".toList) := by
  have hpath : annsDaemon.pathResolver.resolveLocal "/r/gdrive/docs/report.pdf".toList =
      some ⟨"gdrive".toList, ⟨"/docs/report.pdf".toList⟩⟩ := by decide +kernel
  have hothers : ∀ step ∈ carolsSteps, ∀ account, step.call = .createAccount account → account.id ≠ ann.id := by
    refine List.forall_mem_cons.2 ⟨?_, List.forall_mem_singleton.2 ?_⟩
    · rintro account ⟨⟩
      decide
    · rintro account h
      cases h
  exact congrArg Prod.fst (deleted_account_not_found annsDaemon "gdrive".toList ann.id rfl annAndBob DateTime.epoch
    carolsSteps hothers ⟨.byRowid, fun _ => [], fun _ => DateTime.epoch, fun _ => none⟩
    ⟨((deleteAccount ann.id none DateTime.epoch annAndBob).2.run carolsSteps).2.tables, 0, []⟩ rfl rfl _ _ hpath _
    .getStatus)

end DaemonHandler

end CloudSync
