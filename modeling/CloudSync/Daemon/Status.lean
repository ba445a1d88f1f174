/-
The status of a stored file through its local path. The path resolves to the cloud path without its empty
and `.` segments, and the reply is the state of the row SQLite finds first there.
-/
import CloudSync.Daemon.Handler
import CloudSync.Vfs.MetadataSync

namespace CloudSync

open Ipc (Request Response)
open UnixPath (Single)

/-- The visit of the rows that starts with the given one. -/
def Scan.startingAt (r : FileRow) : Scan where
  order rows := if r ∈ rows then r :: rows.erase r else rows
  perm rows := by
    split
    · exact (List.perm_cons_erase ‹_›).symm
    · exact .refl _

namespace DaemonHandler

theorem lookupAccount_of_once {h : DaemonHandler} {slug : Str} {account : AccountId}
    (hmem : (slug, account) ∈ h.providerAccounts) (honce : ∀ p ∈ h.providerAccounts, p.1 = slug → p.2 = account) :
    h.lookupAccount slug = some account := by
  unfold lookupAccount
  cases hfind : h.providerAccounts.find? fun p => decide (p.1 = slug) with
  | none => exact absurd (decide_eq_true rfl) (List.find?_eq_none.1 hfind _ hmem)
  | some p =>
    have hslug : p.1 = slug := by simpa using List.find?_some hfind
    exact congrArg some (honce p (List.mem_of_find?_eq_some hfind) hslug)

/-- With no fault, the reply is the state of the first row at the resolved path. -/
theorem getStatus_eq {env : DaemonEnv} {h : DaemonHandler} {w : DaemonWorld} {path : Str} {slug : Str}
    {account : AccountId} {cloudPath : CloudPath} (hfault : env.dbFault w.sections = none)
    (hresolve : h.pathResolver.resolveLocal path = some ⟨slug, cloudPath⟩)
    (haccount : h.lookupAccount slug = some account) :
    (h.handle env (.getStatus path) w).1 =
      match (env.scan.order w.db.files.rows).find? fun r => r.accountId = account.val ∧ r.path = cloudPath.asStr with
      | none => some (fileNotFound path)
      | some r => (stateOfText r.state).map fun state => .status path state (some slug) none := by
  unfold handle getStatusForPath resolveAndLookup DaemonWorld.withConn getFileByCloudPath
  simp only [hresolve, haccount, hfault]
  cases hfind : (env.scan.order w.db.files.rows).find? fun r =>
      r.accountId = account.val ∧ r.path = cloudPath.asStr with
  | none => rfl
  | some r =>
    have hr := Scan.mem_order.1 (List.mem_of_find?_eq_some hfind)
    obtain ⟨f, hf, -, -, -, -, hstate⟩ := File.fromRow_written (w.db.files.written r hr)
    simp only [hf, ← hstate, stateOfText_stateText]
    rfl

/-- A stored file's status is the reply for its local path, whatever the order of the rows, exactly when the
normal form of its path has a row and every row there has its state. -/
theorem status_reachable_iff (h : DaemonHandler) (slug : Str) (hslug : Single slug) (account : AccountId)
    (hmem : (slug, account) ∈ h.providerAccounts) (honce : ∀ p ∈ h.providerAccounts, p.1 = slug → p.2 = account)
    (db : Database) (f : File) :
    (∀ env w, w.db = db → env.dbFault w.sections = none →
      (h.handle env (.getStatus (h.pathResolver.toLocal slug f.path)) w).1 =
        some (.status (h.pathResolver.toLocal slug f.path) f.state (some slug) none)) ↔
      (∃ r ∈ db.files.rows, r.accountId = account.val ∧ r.path = (PathResolver.normal f.path).asStr) ∧
      ∀ r ∈ db.files.rows, r.accountId = account.val → r.path = (PathResolver.normal f.path).asStr →
        r.state = stateText f.state := by
  have haccount := lookupAccount_of_once hmem honce
  have hresolve := h.pathResolver.resolveLocal_toLocal hslug f.path
  generalize hpath : h.pathResolver.toLocal slug f.path = path at hresolve ⊢
  constructor
  · intro hall
    -- the row the scan starts with is the one that answers
    have hfirst : ∀ r ∈ db.files.rows, r.accountId = account.val → r.path = (PathResolver.normal f.path).asStr →
        r.state = stateText f.state := by
      intro r hr hacc hrpath
      have hreply := hall ⟨.startingAt r, fun _ => [], fun _ => DateTime.epoch, fun _ => none⟩ ⟨db, 0, []⟩ rfl rfl
      rw [getStatus_eq rfl hresolve haccount] at hreply
      have horder : (Scan.startingAt r).order db.files.rows = r :: db.files.rows.erase r := if_pos hr
      simp only [horder, List.find?_cons, hacc, hrpath, and_self, decide_true] at hreply
      obtain ⟨g, rfl⟩ := db.files.written r hr
      have hstate : (g.toRow).state = stateText g.state := rfl
      rw [hstate, stateOfText_stateText, Option.map_some, Option.some.injEq, Response.status.injEq] at hreply
      rw [hstate, hreply.2.1]
    refine ⟨?_, hfirst⟩
    by_contra hnone
    have hreply := hall ⟨.byRowid, fun _ => [], fun _ => DateTime.epoch, fun _ => none⟩ ⟨db, 0, []⟩ rfl rfl
    have hfind : (Scan.byRowid.order db.files.rows).find? (fun r => decide (r.accountId = account.val ∧
        r.path = (PathResolver.normal f.path).asStr)) = none :=
      List.find?_eq_none.2 fun r hr heq => hnone ⟨r, hr, by simpa using heq⟩
    rw [getStatus_eq rfl hresolve haccount] at hreply
    simp only [hfind] at hreply
    cases hreply
  · rintro ⟨⟨r, hr, hacc, hrpath⟩, hall⟩ env w rfl hfault
    rw [getStatus_eq hfault hresolve haccount]
    cases hfind : (env.scan.order w.db.files.rows).find? fun r => decide (r.accountId = account.val ∧
        r.path = (PathResolver.normal f.path).asStr) with
    | none => exact absurd (by simpa using ⟨hacc, hrpath⟩) (List.find?_eq_none.1 hfind r (Scan.mem_order.2 hr))
    | some first =>
      have hfirst := Scan.mem_order.1 (List.mem_of_find?_eq_some hfind)
      have hkey : first.accountId = account.val ∧ first.path = (PathResolver.normal f.path).asStr := by
        simpa using List.find?_some hfind
      simp only [hall first hfirst hkey.1 hkey.2, stateOfText_stateText]
      rfl

/-- A daemon with one account, and its database after a sync of one file. -/
def oneAccount : DaemonHandler := ⟨⟨['/', 'r']⟩, [("gdrive".toList, ⟨['a']⟩)], false⟩

def namedItem (name : Str) : CloudItem :=
  ⟨⟨['f']⟩, name, CloudPath.new ('/' :: name), false, some 1, none, DateTime.epoch, none, none⟩

def oneFile (name : Str) : Database :=
  (upsertSection ⟨['a']⟩ (namedItem name) DateTime.epoch (Database.empty [⟨['a']⟩])).2

/-- The status of a file with a plain name. -/
theorem status_reachable_sample : (oneAccount.handle ⟨.byRowid, fun _ => [], fun _ => DateTime.epoch, fun _ => none⟩
      (.getStatus "/r/gdrive/n".toList) ⟨oneFile ['n'], 0, []⟩).1 =
    some (.status "/r/gdrive/n".toList .cloudOnly (some "gdrive".toList) none) :=
  (status_reachable_iff oneAccount "gdrive".toList (by decide) ⟨['a']⟩ (by decide) (by decide) (oneFile ['n'])
    (cloudItemToDbFile DateTime.epoch ⟨['a']⟩ (namedItem ['n']))).2 (by decide +kernel) _ ⟨oneFile ['n'], 0, []⟩ rfl rfl

/-- A name with a slash at its end is lost on the way: the file is stored, and its path finds nothing. -/
theorem slash_name_unreachable :
    (oneFile ['n', '/']).rowOf ⟨['a']⟩ ⟨['f']⟩ ≠ none ∧
    oneAccount.pathResolver.toLocal "gdrive".toList (namedItem ['n', '/']).path = "/r/gdrive/n/".toList ∧
    (oneAccount.handle ⟨.byRowid, fun _ => [], fun _ => DateTime.epoch, fun _ => none⟩
      (.getStatus "/r/gdrive/n/".toList) ⟨oneFile ['n', '/'], 0, []⟩).1 =
      some (.error "file not found: /r/gdrive/n/".toList) := by
  decide +kernel

end DaemonHandler

end CloudSync
