/-
Listing and change feed of Google Drive: the rows after a listing and an incremental sync, against the rows after a
listing at the end. Incremental sync gets no changes from the client library, so they agree when both listings show the
same.
-/
import CloudSync.Providers.GDriveFeed
import CloudSync.Vfs.Baseline

namespace CloudSync

open GDrive (Drive DriveApi DriveNode DriveEvent)
open Prog (exec Triple)

/-! ## The provider at work -/

/-- The provider over the answers of the Drive API, while no event happens. -/
def driveRemote (api : DriveApi) (now : DateTime) : Remote Unit where
  advance _ := id
  listFolder path _ := GDrive.listFolder path api.filesList
  getChanges cursor _ := GDrive.getChanges api now cursor

/-- A provider that refuses to give the changes after the stored cursor fails incremental sync, whatever else fails; at
no moment has the database changed. -/
theorem incrementalSync_refused {π : Type} {env : Env π} {account : AccountId} {c : Cursor} {w : World π}
    (hcur : w.db.cursorOf account = some c) (hrefused : ∀ s, ∃ e, env.remote.getChanges (some c) s = .error e)
    (fuel : Nat) :
    Triple (handler env) (fun w' => w'.db = w.db) w (incrementalSync fuel account) fun r w' => w'.db = w.db ∧
      ∃ e, r = .error e ∧ (env.Quiet → fuel ≠ 0 → ∃ s e', env.remote.getChanges (some c) s = .error e' ∧
        e = .provider "Failed to get changes".toList e') := by
  unfold incrementalSync
  refine Triple.bind (R := fun r w' => w'.db = w.db ∧ ((∃ e, r = .error e ∧ ¬ env.Quiet) ∨ r = .ok (some c))) ?_ ?_ ?_
  · refine triple_withConn rfl (fun e hfault => ⟨rfl, rfl, .inl ⟨_, rfl, fun hq => ?_⟩⟩) fun r db hr => ?_
    · rw [hq.db] at hfault
      cases hfault
    · rw [getCursor_eq, hcur] at hr
      cases hr
      exact ⟨rfl, rfl, .inr rfl⟩
  · rintro cursor w₁ hdb ⟨-, ⟨e, herr, -⟩ | hcursor⟩
    · cases herr
    cases hcursor
    cases fuel with
    | zero => exact Triple.throw hdb ⟨hdb, _, rfl, fun _ h => absurd rfl h⟩
    | succ fuel =>
      unfold pageLoop
      refine Triple.bind (R := fun r w' => w'.db = w.db ∧ ∃ e, r = .error e ∧ (env.Quiet →
        ∃ s e', env.remote.getChanges (some c) s = .error e' ∧ e = .provider "Failed to get changes".toList e'))
        ?_ ?_ ?_
      · refine triple_call hdb hdb rfl (fun e herr => ⟨hdb, _, rfl, fun hq => ?_⟩) fun changeList hok => ?_
        · rw [hq.net] at herr
          exact ⟨_, e, herr, rfl⟩
        · obtain ⟨e, he⟩ := hrefused (env.remote.advance w₁.step w₁.remote)
          rw [he] at hok
          cases hok
      · rintro changeList w₂ - ⟨-, e, hok, -⟩
        cases hok
      · rintro err w₂ - ⟨hdb₂, e, herr, hquiet⟩
        cases herr
        exact ⟨hdb₂, _, rfl, fun hq _ => hquiet hq⟩
  · rintro err w₁ - ⟨hdb, ⟨e, herr, hfault⟩ | hok⟩
    · cases herr
      exact ⟨hdb, _, rfl, fun hq => absurd hq hfault⟩
    · cases hok

/-! ## A listing -/

/-- What a listing stores about a file: the metadata of its item, if the query matches and it converts. -/
def listedMetadata (d : Drive) (id : FileId) : Option Metadata :=
  (d.node id.val).bind fun n => if n.Matches then n.item.map CloudItem.metadata else none

theorem mem_listing {d : Drive} {item : CloudItem} :
    item ∈ GDrive.cloudItems d.filesList ↔ ∃ n, d.node item.id.val = some n ∧ n.Matches ∧ n.item = some item := by
  have hitem : ∀ n : DriveNode, n.item = some item ↔ GDrive.fileToCloudItem n.toFile = .ok item := by
    intro n
    unfold DriveNode.item
    cases GDrive.fileToCloudItem n.toFile <;> simp [Except.toOption]
  rw [GDrive.mem_cloudItems]
  unfold Drive.filesList
  simp only [List.mem_map, List.mem_filter, decide_eq_true_eq]
  constructor
  · rintro ⟨_, ⟨n, ⟨hn, hmatches⟩, rfl⟩, hok⟩
    have hsome := (hitem n).2 hok
    exact ⟨n, Drive.node_eq_some.2 ⟨hn, (DriveNode.item_id hsome).symm⟩, hmatches, hsome⟩
  · rintro ⟨n, hn, hmatches, hsome⟩
    exact ⟨_, ⟨n, ⟨(Drive.node_eq_some.1 hn).1, hmatches⟩, rfl⟩, (hitem n).1 hsome⟩

/-- From an empty files table, initial sync stores the listing. -/
theorem initialSync_listing {env : Env Unit} (hq : env.Quiet) {account : AccountId} {w : World Unit} {api : DriveApi}
    {now : DateTime} {d : Drive} {token : Str} (hremote : env.remote = driveRemote api now)
    (hacc : account ∈ w.db.accounts) (hempty : w.db.files.rows = []) (hlist : api.filesList = .ok (some d.filesList))
    (htoken : api.startPageToken = .ok (some token)) :
    ∃ n w', exec (handler env) (initialSync account) w = (.ok n, w') ∧
      w'.db.metadataOf account = listedMetadata d ∧
      (∀ key : Str × Str, key.1 ≠ account.val → w'.db.files.rowAt key = none) ∧
      w'.db.cursorOf account = some token := by
  have hfolder : ∀ s, env.remote.listFolder CloudPath.root s = .ok (GDrive.cloudItems d.filesList) := by
    intro s
    rw [hremote]
    show GDrive.listFolder CloudPath.root api.filesList = _
    rw [hlist]
    rfl
  have hchanges : ∀ s, env.remote.getChanges none s = .ok ⟨[], token, false⟩ := by
    intro s
    rw [hremote]
    show GDrive.getChanges api now none = _
    unfold GDrive.getChanges
    simp only [htoken]
  have hpost := (initialSync_triple w (hfolder _) hacc).post
  rcases hrun : exec (handler env) (initialSync account) w with ⟨err | n, w'⟩
  · rw [hrun] at hpost
    exact absurd ⟨hq, _, hchanges _⟩ hpost
  · rw [hrun] at hpost
    obtain ⟨-, hrep, -, cl, hcl, hcur⟩ := hpost
    rw [hchanges] at hcl
    cases hcl
    have hothers : ∀ key : Str × Str, key.1 ≠ account.val → w'.db.files.rowAt key = none := by
      intro key hkey
      rw [hrep.others key hkey]
      unfold FilesTable.rowAt
      rw [hempty]
      rfl
    refine ⟨n, w', rfl, ?_, hothers, hcur⟩
    have huniq : ∀ item₁ ∈ GDrive.cloudItems d.filesList, ∀ item₂ ∈ GDrive.cloudItems d.filesList,
        item₁.id = item₂.id → item₁.metadata = item₂.metadata := by
      intro item₁ h₁ item₂ h₂ hid
      obtain ⟨n₁, hn₁, -, hitem₁⟩ := mem_listing.1 h₁
      obtain ⟨n₂, hn₂, -, hitem₂⟩ := mem_listing.1 h₂
      rw [hid, hn₂] at hn₁
      cases hn₁
      rw [hitem₁] at hitem₂
      rw [Option.some.inj hitem₂]
    funext id
    ext m
    rw [hrep.metadataOf_items hempty huniq]
    unfold listedMetadata
    simp only [mem_listing, Option.bind_eq_some_iff]
    constructor
    · rintro ⟨item, ⟨n, hn, hmatches, hitem⟩, rfl, rfl⟩
      exact ⟨n, hn, by rw [if_pos hmatches, hitem]; rfl⟩
    · rintro ⟨n, hn, hm⟩
      split at hm
      · rename_i hmatches
        obtain ⟨item, hitem, rfl⟩ := Option.map_eq_some_iff.1 hm
        have hid : item.id.val = id.val := (DriveNode.item_id hitem).trans (Drive.node_eq_some.1 hn).2
        exact ⟨item, ⟨n, hid ▸ hn, hmatches, hitem⟩, congrArg FileId.mk hid, rfl⟩
      · cases hm

/-! ## Agreement -/

/-- The columns a view of the files shows. -/
structure Shown where
  name : Str
  path : Str
  size : Option UInt64
  contentHash : Option Str
  isFolder : Bool
deriving DecidableEq

def Metadata.shown (m : Metadata) : Shown := ⟨m.name, m.path, m.size, m.contentHash, m.isFolder⟩

/-- The rows of the files table as they are shown, by account and provider file id. -/
def Database.shown (db : Database) (key : Str × Str) : Option Shown :=
  (db.files.rowAt key).map fun r => r.metadata.shown

theorem Database.shown_self (db : Database) (account : AccountId) (id : FileId) :
    db.shown (account.val, id.val) = (db.metadataOf account id).map Metadata.shown := by
  unfold Database.shown Database.metadataOf Database.rowOf
  rw [Option.map_map]
  rfl

/-- What a listing tells of a file. -/
structure ListedFile where
  name : Str
  size : Option Int64
  md5Checksum : Option Str
  isFolder : Bool
deriving DecidableEq

/-- A file is listed when it is an untrashed child of the root and has a name and a modification time. -/
def listedFile (n : DriveNode) : Option ListedFile :=
  match n.name, n.modifiedTime with
  | some name, some _ =>
    if n.Matches then
      some ⟨name, n.size, n.md5Checksum,
        (n.mimeType.map fun mt => decide (mt = "application/vnd.google-apps.folder".toList)).getD false⟩
    else none
  | _, _ => none

/-- A file that two Drives list alike: neither does, or both, with the same name, size, hash and kind. -/
def ListedAlike (d₀ d₁ : Drive) (id : Str) : Prop := (d₀.node id).bind listedFile = (d₁.node id).bind listedFile

instance (d₀ d₁ : Drive) (id : Str) : Decidable (ListedAlike d₀ d₁ id) := by unfold ListedAlike; infer_instance

/-- A file no event is about is listed as before. -/
theorem listedAlike_untouched {d : Drive} {events : List DriveEvent} {id : Str}
    (h : ∀ event ∈ events, id ∉ event.touched) : ListedAlike d (d.after events) id := by
  unfold ListedAlike
  rw [Drive.node_after h]

def ListedFile.shown (f : ListedFile) : Shown :=
  ⟨f.name, (CloudPath.new ('/' :: f.name)).asStr, f.size.map Int64.toUInt64, f.md5Checksum, f.isFolder⟩

theorem ListedFile.shown_injective : Function.Injective ListedFile.shown := by
  rintro ⟨name, size, md5Checksum, isFolder⟩ ⟨name', size', md5Checksum', isFolder'⟩ h
  have hsizes : Function.Injective (Option.map Int64.toUInt64) :=
    Option.map_injective (Function.LeftInverse.injective Int64.toInt64_toUInt64)
  simp only [ListedFile.shown, Shown.mk.injEq] at h
  obtain ⟨rfl, -, hsize, rfl, rfl⟩ := h
  rw [hsizes hsize]

theorem listedMetadata_shown (d : Drive) (id : FileId) :
    (listedMetadata d id).map Metadata.shown = ((d.node id.val).bind listedFile).map ListedFile.shown := by
  unfold listedMetadata
  cases d.node id.val with
  | none => rfl
  | some n =>
    simp only [Option.bind_some]
    unfold listedFile DriveNode.item GDrive.fileToCloudItem DriveNode.toFile
    cases n.name with
    | none => split <;> rfl
    | some name =>
      cases n.modifiedTime with
      | none => split <;> rfl
      | some modified => split <;> rfl

/-- Two Drives list a file alike when its rows are shown alike. -/
theorem listedMetadata_alike {d₀ d₁ : Drive} {id : Str} :
    (listedMetadata d₀ ⟨id⟩).map Metadata.shown = (listedMetadata d₁ ⟨id⟩).map Metadata.shown ↔
      ListedAlike d₀ d₁ id := by
  rw [listedMetadata_shown, listedMetadata_shown]
  exact (Option.map_injective ListedFile.shown_injective).eq_iff

/-- From an empty files table, over a client library that has a setter for `includeRemoved`: after the initial sync of
a Drive, incremental sync fails whatever happened since and leaves the rows of the listing. They are those of an initial
sync of the changed Drive if and only if the changed Drive lists every file the events are about as before. -/
theorem incrementalSync_agrees_iff (env₀ env₁ env₂ : Env Unit) (account : AccountId) (fuel : Nat) (w w' : World Unit)
    (d : Drive) (events : List DriveEvent) (hq₀ : env₀.Quiet) (hq₁ : env₁.Quiet) (hq₂ : env₂.Quiet)
    {api₀ api₁ : DriveApi} {now₀ now₁ now₂ : DateTime} {token token' refusal : Str}
    (hremote₀ : env₀.remote = driveRemote api₀ now₀) (hlist₀ : api₀.filesList = .ok (some d.filesList))
    (htoken₀ : api₀.startPageToken = .ok (some token))
    (hremote₁ : env₁.remote = driveRemote api₁ now₁)
    (hsetter : api₁.refusesParam "includeRemoved".toList = some refusal)
    (hremote₂ : env₂.remote = driveRemote api₁ now₂) (hlist₁ : api₁.filesList = .ok (some (d.after events).filesList))
    (htoken₁ : api₁.startPageToken = .ok (some token'))
    (hacc : account ∈ w.db.accounts) (hempty : w.db.files.rows = [])
    (hacc' : account ∈ w'.db.accounts) (hempty' : w'.db.files.rows = []) :
    ∃ n₀ w₀ e w₁ n₂ w₂, exec (handler env₀) (initialSync account) w = (.ok n₀, w₀) ∧
      exec (handler env₁) (incrementalSync (fuel + 1) account) w₀ =
        (.error (.provider "Failed to get changes".toList
          (.providerApi "gdrive".toList ("Failed to list changes: ".toList ++ e))), w₁) ∧
      exec (handler env₂) (initialSync account) w' = (.ok n₂, w₂) ∧
      ((∀ key, w₁.db.shown key = w₂.db.shown key) ↔
        ∀ event ∈ events, ∀ id ∈ event.touched, ListedAlike d (d.after events) id) := by
  obtain ⟨n₀, w₀, hrun₀, hmeta₀, hothers₀, hcur₀⟩ := initialSync_listing hq₀ hremote₀ hacc hempty hlist₀ htoken₀
  obtain ⟨n₂, w₂, hrun₂, hmeta₂, hothers₂, -⟩ := initialSync_listing hq₂ hremote₂ hacc' hempty' hlist₁ htoken₁
  obtain ⟨e, hrefused⟩ := GDrive.getChanges_refused hsetter now₁ token
  have hanswer : ∀ u, env₁.remote.getChanges (some token) u = GDrive.getChanges api₁ now₁ (some token) := by
    intro u
    rw [hremote₁]
    rfl
  have hpost := (incrementalSync_refused hcur₀ (fun u => ⟨_, (hanswer u).trans hrefused⟩) (fuel + 1)).post
  rcases hrun₁ : exec (handler env₁) (incrementalSync (fuel + 1) account) w₀ with ⟨r, w₁⟩
  rw [hrun₁] at hpost
  obtain ⟨hdb, err, rfl, hquiet⟩ := hpost
  obtain ⟨u, e', he', rfl⟩ := hquiet hq₁ (Nat.succ_ne_zero fuel)
  cases hrefused.symm.trans ((hanswer u).symm.trans he')
  refine ⟨n₀, w₀, e, w₁, n₂, w₂, hrun₀, hrun₁, hrun₂, ?_⟩
  rw [hdb]
  have hself : ∀ id : Str, w₀.db.shown (account.val, id) = w₂.db.shown (account.val, id) ↔
      ListedAlike d (d.after events) id := by
    intro id
    rw [Database.shown_self _ account ⟨id⟩, Database.shown_self _ account ⟨id⟩, hmeta₀, hmeta₂]
    exact listedMetadata_alike
  constructor
  · intro hsame event _ id _
    exact (hself id).1 (hsame (account.val, id))
  · rintro halike ⟨a, id⟩
    by_cases ha : a = account.val
    · rw [ha, hself id]
      by_cases htouched : ∃ event ∈ events, id ∈ event.touched
      · obtain ⟨event, hevent, hid⟩ := htouched
        exact halike event hevent id hid
      · exact listedAlike_untouched fun event hevent hid => htouched ⟨event, hevent, hid⟩
    -- no sync writes a row of another account
    · unfold Database.shown
      rw [hothers₀ (a, id) ha, hothers₂ (a, id) ha]

def sampleNode (id name parent : Str) : DriveNode where
  id := id
  name := some name
  mimeType := none
  size := none
  md5Checksum := none
  modifiedTime := some DateTime.epoch
  createdTime := none
  trashed := false
  parents := [parent]

/-- A file in the root and a file in a folder. -/
def sampleDrive : Drive where
  nodes := [sampleNode ['f'] ['n'] "root".toList, sampleNode ['g'] ['m'] ['d']]
  idsNodup := by decide

/-- The Drive API that reports a Drive and some of its files, in one page, behind a library that has a setter for
`includeRemoved`. -/
def sampleApi (d : Drive) (reported : List Str) : DriveApi where
  filesList := .ok (some d.filesList)
  startPageToken := .ok (some ['1'])
  changesList _ := .ok ⟨some (reported.map (d.report fun _ => none)), none, some ['2']⟩
  refusesParam := GDrive.setterRefusal

/-- The environment of a Drive that reports some of its files. -/
def sampleEnv (d : Drive) (reported : List Str) : Env Unit :=
  Env.calm (driveRemote (sampleApi d reported) DateTime.epoch)

/-- The world with an empty files table. -/
def emptyWorld : World Unit := ⟨Database.empty [sampleAccount], (), 0⟩

/-- The file in the folder is renamed, and then trashed. -/
def sampleEvents : List DriveEvent := [.edit ['g'] (sampleNode ['g'] ['k'] []).toFile, .trash [['g']]]

/-- Nothing in the root has changed. -/
theorem incrementalSync_agrees_sample :
    ∃ n₀ w₀ e w₁ n₂ w₂, exec (handler (sampleEnv sampleDrive [])) (initialSync sampleAccount) emptyWorld =
      (.ok n₀, w₀) ∧
      exec (handler (sampleEnv (sampleDrive.after sampleEvents) [['g']])) (incrementalSync 1 sampleAccount) w₀ =
        (.error e, w₁) ∧
      exec (handler (sampleEnv (sampleDrive.after sampleEvents) [['g']])) (initialSync sampleAccount) emptyWorld =
        (.ok n₂, w₂) ∧
      ∀ key, w₁.db.shown key = w₂.db.shown key := by
  obtain ⟨n₀, w₀, e, w₁, n₂, w₂, hrun₀, hrun₁, hrun₂, hiff⟩ := incrementalSync_agrees_iff
    (sampleEnv sampleDrive []) (sampleEnv (sampleDrive.after sampleEvents) [['g']])
    (sampleEnv (sampleDrive.after sampleEvents) [['g']]) sampleAccount 0 emptyWorld emptyWorld sampleDrive
    sampleEvents (Env.calm_quiet _) (Env.calm_quiet _) (Env.calm_quiet _) rfl rfl rfl rfl rfl rfl rfl rfl
    (by decide) rfl (by decide) rfl
  exact ⟨n₀, w₀, _, w₁, n₂, w₂, hrun₀, hrun₁, hrun₂, hiff.2 (by decide)⟩

/-- The file in the root is renamed. -/
def renameEvents : List DriveEvent := [.edit ['f'] (sampleNode ['f'] ['k'] []).toFile]

/-- The feed reports the renamed file, and incremental sync fails: the row keeps the old name. -/
theorem renamed_file_missed :
    ∃ w₀ e w₁ w₂, exec (handler (sampleEnv sampleDrive [])) (initialSync sampleAccount) emptyWorld = (.ok 1, w₀) ∧
      exec (handler (sampleEnv (sampleDrive.after renameEvents) [['f']])) (incrementalSync 1 sampleAccount) w₀ =
        (.error e, w₁) ∧
      exec (handler (sampleEnv (sampleDrive.after renameEvents) [['f']])) (initialSync sampleAccount) emptyWorld =
        (.ok 1, w₂) ∧
      (w₁.db.shown (['a'], ['f'])).map Shown.path = some ['/', 'n'] ∧
      (w₂.db.shown (['a'], ['f'])).map Shown.path = some ['/', 'k'] :=
  ⟨_, _, _, _, rfl, rfl, rfl, by decide, by decide⟩

end CloudSync
