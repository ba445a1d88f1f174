/-
What the reads through a handle return. A call of the cache only puts a file where nothing was, so what was at the path
of a handle when it was opened stays there: all reads through it are of one content, which was there when the session
began or came from a download that one of its opens has made. Parts read one behind the other are that content from its
start, up to its end once a read returns nothing.
-/
import CloudSync.Vfs.DownloadThreads
import CloudSync.Vfs.FileHandles

namespace CloudSync

open Prog (exec)
open PartReads (PartRead Consecutive assembled)
open ContentCache (ensureDownloaded cachePlace cachedPath exec_ensureDownloaded_present exec_ensureDownloaded_download
  readNode)

/-! ## The local disk -/

/-- The local disk, by place. -/
abbrev LocalDisk := List UnixPath.Text → Option Node

/-- What a call of the cache for a file has left at a place where nothing was: the bytes its download wrote, which are
a part of the file when it failed. -/
structure CacheEnv.Left (env : CacheEnv) (cacheRoot : UnixPath.Text) (fileId : FileId) (w w' : CacheWorld)
    (place : List UnixPath.Text) (node : Node) : Prop where
  own : cachePlace env cacheRoot fileId = place
  absent : w.files place = none
  present : w'.files place = some node
  bytes : ∃ bytes, (env.download w.downloads fileId).2 = some bytes ∧ node = .file bytes

/-- Where a download was completed something is. -/
def CacheWorld.Completed (env : CacheEnv) (cacheRoot : UnixPath.Text) (w : CacheWorld) : Prop :=
  ∀ fileId, w.locks fileId = some .complete → w.files (cachePlace env cacheRoot fileId) ≠ none

/-- What a call of the cache for a file does to the disk: what is there stays, and what is new was downloaded to its
place. -/
structure DiskStep (env : CacheEnv) (cacheRoot : UnixPath.Text) (fileId : FileId) (w w' : CacheWorld) : Prop where
  kept : ∀ place node, w.files place = some node → w'.files place = some node
  left : ∀ place node, w'.files place = some node →
    w.files place = some node ∨ env.Left cacheRoot fileId w w' place node
  completed : w'.Completed env cacheRoot

section

variable {env : CacheEnv} {cacheRoot : UnixPath.Text} {w : CacheWorld}

theorem downloaded_of_absent {fileId : FileId} {w' : CacheWorld}
    (hnone : w.files (cachePlace env cacheRoot fileId) = none)
    (hfiles : w'.files = ContentCache.downloaded env cacheRoot fileId w) :
    (∀ place node, w.files place = some node → w'.files place = some node) ∧
      ∀ place node, w'.files place = some node →
        w.files place = some node ∨ env.Left cacheRoot fileId w w' place node := by
  unfold ContentCache.downloaded at hfiles
  cases hleft : (env.download w.downloads fileId).2 with
  | none =>
    rw [hleft] at hfiles
    simp only [hfiles]
    exact ⟨fun _ _ h => h, fun _ _ h => .inl h⟩
  | some bytes =>
    rw [hleft] at hfiles
    refine ⟨fun place node h => ?_, fun place node h => ?_⟩
    · have hne : place ≠ cachePlace env cacheRoot fileId := by
        rintro rfl
        rw [hnone] at h
        cases h
      rw [hfiles]
      exact (Function.update_of_ne hne ..).trans h
    · by_cases hplace : place = cachePlace env cacheRoot fileId
      · subst hplace
        refine .inr ⟨rfl, hnone, h, bytes, hleft, ?_⟩
        simp only [hfiles, Function.update_self] at h
        cases h
        rfl
      · rw [hfiles] at h
        exact .inl ((Function.update_of_ne hplace ..).symm.trans h)

/-- A call of the cache keeps the disk, and returns a path only where something is. -/
theorem ensureDownloaded_disk (hleaves : ∀ fileId, ContentCache.Leaves env fileId)
    (hcompleted : w.Completed env cacheRoot) {accountId : AccountId} {fileId : FileId}
    {r : Except CacheStop UnixPath.Text} {w' : CacheWorld}
    (hrun : exec env.handler (ensureDownloaded cacheRoot accountId fileId) w = (r, w')) :
    DiskStep env cacheRoot fileId w w' ∧ ∀ path, r = .ok path →
      path = cachedPath cacheRoot fileId ∧ ∃ node, w'.files (cachePlace env cacheRoot fileId) = some node := by
  cases hcopy : w.files (cachePlace env cacheRoot fileId) with
  | some node =>
    rw [exec_ensureDownloaded_present accountId hcopy] at hrun
    cases hrun
    refine ⟨⟨fun _ _ h => h, fun _ _ h => .inl h, hcompleted⟩, ?_⟩
    rintro path ⟨⟩
    exact ⟨rfl, node, hcopy⟩
  | none =>
    have hlock : w.locks fileId ≠ some .complete := fun hlock => hcompleted fileId hlock hcopy
    obtain ⟨sections', hdownload⟩ := exec_ensureDownloaded_download accountId hcopy hlock
    rw [hdownload] at hrun
    have hfiles : w'.files = ContentCache.downloaded env cacheRoot fileId w :=
      (congrArg CacheWorld.files (congrArg Prod.snd hrun)).symm
    obtain ⟨hkept, hleft⟩ := downloaded_of_absent hcopy hfiles
    cases hrun
    -- a download that succeeds has left the file
    have hdone : (env.download w.downloads fileId).1 = .ok () →
        ∃ node, ContentCache.downloaded env cacheRoot fileId w (cachePlace env cacheRoot fileId) = some node := by
      intro hok
      obtain ⟨bytes, hbytes⟩ := Option.isSome_iff_exists.1 (hleaves fileId w.downloads hok)
      refine ⟨.file bytes, ?_⟩
      unfold ContentCache.downloaded
      rw [hbytes]
      exact Function.update_self ..
    refine ⟨⟨hkept, hleft, fun fileId' hlock' => ?_⟩, fun path hpath => ?_⟩
    · have hlock' : Function.update w.locks fileId (some (ContentCache.finalStatus
        (env.download w.downloads fileId).1)) fileId' = some .complete := hlock'
      by_cases hid : fileId' = fileId
      · subst hid
        rw [Function.update_self] at hlock'
        cases hresult : (env.download w.downloads fileId').1 with
        | ok _ =>
          obtain ⟨node, hnode⟩ := hdone hresult
          exact fun h => Option.some_ne_none node (hnode.symm.trans h)
        | error e =>
          rw [hresult] at hlock'
          cases e <;> cases hlock'
      · rw [Function.update_of_ne hid] at hlock'
        obtain ⟨node, hnode⟩ := Option.ne_none_iff_exists'.1 (hcompleted fileId' hlock')
        exact fun h => Option.some_ne_none node ((hkept _ node hnode).symm.trans h)
    · cases hresult : (env.download w.downloads fileId).1 with
      | ok _ =>
        rw [hresult] at hpath
        cases hpath
        exact ⟨rfl, hdone hresult⟩
      | error e =>
        rw [hresult] at hpath
        cases e <;> cases hpath

end

/-! ## Reads through a handle -/

namespace MountSession

/-- What a read of a file replies. -/
def replyOf : Except Errno Bytes → FsReply
  | .ok data => .data (.ok data)
  | .error e => .data (.error (.cache e))

variable {env : CacheEnv} {m : MountedFS}

/-- Where a download was completed something is. -/
def Completed (env : CacheEnv) (s : MountedFS) : Prop :=
  ∀ cacheRoot, s.contentCache = some cacheRoot → s.cache.Completed env cacheRoot

/-- A request keeps the disk, or is an `open` of a file that comes to the cache. -/
theorem Moves.disk (hleaves : ∀ fileId, ContentCache.Leaves env fileId) {s s' : MountedFS} {r : FsRequest}
    {reply : FsReply} (h : Moves env s r reply s') (hcompleted : Completed env s) :
    s'.contentCache = s.contentCache ∧ (s'.cache = s.cache ∨ ∃ e ino fileId cacheRoot, r = .openFile e ino ∧
      s.inodeManager.getFileId e.inode ino = .ok (some fileId) ∧ s.contentCache = some cacheRoot ∧
        DiskStep env cacheRoot fileId s.cache s'.cache) := by
  cases h with
  | lookup | getattr | readdir | refused | read | release => exact ⟨rfl, .inl rfl⟩
  | failed hid hcache hrun | opened hid hcache hrun =>
    exact ⟨rfl, .inr ⟨_, _, _, _, rfl, hid, hcache,
      (ensureDownloaded_disk hleaves (hcompleted _ hcache) hrun).1⟩⟩

theorem Moves.completed (hleaves : ∀ fileId, ContentCache.Leaves env fileId) {s s' : MountedFS} {r : FsRequest}
    {reply : FsReply} (h : Moves env s r reply s') (hcompleted : Completed env s) : Completed env s' := by
  obtain ⟨hroot, hdisk⟩ := h.disk hleaves hcompleted
  intro cacheRoot hcacheRoot
  rw [hroot] at hcacheRoot
  rcases hdisk with hsame | ⟨_, _, _, cacheRoot', -, -, hroot', hstep⟩
  · rw [hsame]
    exact hcompleted cacheRoot hcacheRoot
  · cases hcacheRoot.symm.trans hroot'
    exact hstep.completed

/-- The open files of a request later were open before, or one was opened by it, and then something is at its path. -/
theorem Moves.openFiles (hleaves : ∀ fileId, ContentCache.Leaves env fileId) {s s' : MountedFS} {r : FsRequest}
    {reply : FsReply} (h : Moves env s r reply s') (hcompleted : Completed env s) {fh : UInt64} {file : OpenFile}
    (hfile : s'.openFiles fh = some file) :
    (∃ e ino fileId cacheRoot node, (r, reply) = (.openFile e ino, .opened (.ok fh)) ∧
        s.inodeManager.getFileId e.inode ino = .ok (some fileId) ∧ s.contentCache = some cacheRoot ∧
        file.path = cachedPath cacheRoot fileId ∧ s'.cache.files (env.place file.path) = some node) ∨
      handleOpened (r, reply) ≠ some fh ∧ handleReleased (r, reply) ≠ some fh ∧ s.openFiles fh = some file := by
  have hnone : none ≠ some fh := (Option.some_ne_none fh).symm
  have hrefused : ∀ {e : FsEnv} {ino : UInt64} {reply : FileReply UInt64}, (∀ fh, reply ≠ .ok fh) →
      handleOpened (.openFile e ino, .opened reply) ≠ some fh := by
    intro e ino reply hreply
    cases reply with
    | ok fh => exact absurd rfl (hreply fh)
    | error | panic => exact hnone
  cases h with
  | lookup | getattr | readdir | read => exact .inr ⟨hnone, hnone, hfile⟩
  | refused hreply | failed _ _ _ hreply => exact .inr ⟨hrefused hreply, hnone, hfile⟩
  | @opened e ino cacheRoot path fileId cache hid hcache hrun =>
    have hfile : Function.update s.openFiles s.nextFh (some ⟨path⟩) fh = some file := hfile
    by_cases hfh : fh = s.nextFh
    · subst hfh
      rw [Function.update_self] at hfile
      cases hfile
      obtain ⟨rfl, node, hnode⟩ := (ensureDownloaded_disk hleaves (hcompleted _ hcache) hrun).2 path rfl
      exact .inl ⟨e, ino, fileId, cacheRoot, node, rfl, hid, hcache, rfl, hnode⟩
    · rw [Function.update_of_ne hfh] at hfile
      exact .inr ⟨fun hopened => hfh (Option.some.inj hopened).symm, hnone, hfile⟩
  | release fh' =>
    have hfile : Function.update s.openFiles fh' none fh = some file := hfile
    by_cases hfh : fh = fh'
    · rw [hfh, Function.update_self] at hfile
      cases hfile
    · rw [Function.update_of_ne hfh] at hfile
      exact .inr ⟨hnone, fun hreleased => hfh (Option.some.inj hreleased).symm, hfile⟩

theorem step_completed (hleaves : ∀ fileId, ContentCache.Leaves env fileId) {s : MountSession}
    (h : Completed env s.mounted) (event : FsEvent) : Completed env (s.step env event).mounted := by
  cases event with
  | background write => exact h
  | request r =>
    unfold MountSession.step
    simp only
    split
    · exact (answer_moves env s.mounted r).completed hleaves h
    · exact h

theorem start_completed (env : CacheEnv) (contentCache : Option UnixPath.Text) (inodeManager : InodeManager)
    (accountId : AccountId) (db : Database) (files : LocalDisk) :
    Completed env (MountedFS.fresh contentCache inodeManager accountId db files) :=
  fun cacheRoot _ fileId hlock => by cases hlock

/-! ### The events of a session -/

/-- Among the events is a request to open the file of the id, which came when the session was in the state `t`. -/
def Asked (env : CacheEnv) (m : MountedFS) (events : List FsEvent) (t : MountSession) (e : FsEnv) (ino : UInt64)
    (fileId : FileId) : Prop :=
  ∃ before after, events = before ++ .request (.openFile e ino) :: after ∧ t = (start m).run env before ∧
    t.mounted.inodeManager.getFileId e.inode ino = .ok (some fileId)

/-- What one of these requests has downloaded to a place where nothing was. -/
def LeftBy (env : CacheEnv) (m : MountedFS) (events : List FsEvent) (place : List UnixPath.Text) (node : Node) : Prop :=
  ∃ t e ino fileId cacheRoot, Asked env m events t e ino fileId ∧ t.mounted.contentCache = some cacheRoot ∧
    env.Left cacheRoot fileId t.mounted.cache (t.step env (.request (.openFile e ino))).mounted.cache place node

/-- The handle was opened by one of these requests for the file, before `post` was served. -/
def OpenedFor (env : CacheEnv) (m : MountedFS) (events : List FsEvent) (served : List (FsRequest × FsReply))
    (fh : UInt64) (fileId : FileId) (post : List (FsRequest × FsReply)) : Prop :=
  ∃ t e ino, Asked env m events t e ino fileId ∧ served = t.served ++ (.openFile e ino, .opened (.ok fh)) :: post

theorem Asked.later {events : List FsEvent} {t : MountSession} {e : FsEnv} {ino : UInt64} {fileId : FileId}
    (h : Asked env m events t e ino fileId) (event : FsEvent) : Asked env m (events ++ [event]) t e ino fileId := by
  obtain ⟨before, after, rfl, ht, hid⟩ := h
  exact ⟨before, after ++ [event], List.append_assoc .., ht, hid⟩

theorem LeftBy.later {events : List FsEvent} {place : List UnixPath.Text} {node : Node}
    (h : LeftBy env m events place node) (event : FsEvent) : LeftBy env m (events ++ [event]) place node := by
  obtain ⟨t, e, ino, fileId, cacheRoot, hasked, hleft⟩ := h
  exact ⟨t, e, ino, fileId, cacheRoot, hasked.later event, hleft⟩

theorem OpenedFor.later {events : List FsEvent} {served post : List (FsRequest × FsReply)} {fh : UInt64}
    {fileId : FileId} (h : OpenedFor env m events served fh fileId post) (event : FsEvent)
    (more : List (FsRequest × FsReply)) :
    OpenedFor env m (events ++ [event]) (served ++ more) fh fileId (post ++ more) := by
  obtain ⟨t, e, ino, hasked, rfl⟩ := h
  exact ⟨t, e, ino, hasked.later event, List.append_assoc ..⟩

/-- The open file was opened for a file id and has something at its path, and all reads through its handle since it was
opened were of that. -/
def ReadsOne (env : CacheEnv) (m : MountedFS) (events : List FsEvent) (s : MountSession) (fh : UInt64)
    (file : OpenFile) : Prop :=
  ∃ cacheRoot fileId node, s.mounted.contentCache = some cacheRoot ∧ file.path = cachedPath cacheRoot fileId ∧
    s.mounted.cache.files (env.place file.path) = some node ∧
    ∀ post, since fh s.served = some post → OpenedFor env m events s.served fh fileId post ∧
      ∀ sys offset size reply, (FsRequest.read sys fh offset size, reply) ∈ post →
        reply = replyOf (readNode sys (some node) offset size)

/-- What is on the disk was there at the start or was downloaded by an `open`, and every open file is read as one. -/
structure Snapshots (env : CacheEnv) (m : MountedFS) (events : List FsEvent) (s : MountSession) : Prop where
  completed : Completed env s.mounted
  origin : ∀ place node, s.mounted.cache.files place = some node →
    m.cache.files place = some node ∨ LeftBy env m events place node
  handles : ∀ fh file, s.mounted.openFiles fh = some file → ReadsOne env m events s fh file

/-- A read through an open handle. -/
theorem read_cached {s : MountedFS} {fh : UInt64} {file : OpenFile} {cacheRoot : UnixPath.Text}
    (hfile : s.openFiles fh = some file) (hcache : s.contentCache = some cacheRoot) (sys : ReadSys) (offset : Int64)
    (size : UInt32) :
    FsReply.data (s.read env sys fh offset size) =
      replyOf (readNode sys (s.cache.files (env.place file.path)) offset size) := by
  unfold MountedFS.read
  simp only [hfile, hcache, ContentCache.readFileAt]
  cases readNode sys (s.cache.files (env.place file.path)) offset size <;> rfl

theorem Moves.reply_read {s s' : MountedFS} {reply : FsReply} {sys : ReadSys} {fh : UInt64} {offset : Int64}
    {size : UInt32} (h : Moves env s (.read sys fh offset size) reply s') :
    reply = .data (s.read env sys fh offset size) := by
  cases h
  rfl

theorem step_request {s : MountSession} (hrunning : s.running = true) (r : FsRequest) :
    s.step env (.request r) = ⟨(answer env s.mounted r).2, !(answer env s.mounted r).1.panics,
      s.served ++ [(r, (answer env s.mounted r).1)]⟩ := by
  unfold MountSession.step
  simp only [hrunning, if_true]

section

variable {events : List FsEvent} {s : MountSession}

theorem asked_last (hs : s = (start m).run env events) {e : FsEnv} {ino : UInt64} {fileId : FileId}
    (hid : s.mounted.inodeManager.getFileId e.inode ino = .ok (some fileId)) :
    Asked env m (events ++ [.request (.openFile e ino)]) s e ino fileId :=
  ⟨events, [], rfl, hs, hid⟩

/-- What a request leaves on the disk was there before it, or was downloaded by it. -/
theorem Snapshots.origin_request (hleaves : ∀ fileId, ContentCache.Leaves env fileId)
    (hs : s = (start m).run env events) (hrunning : s.running = true) (h : Snapshots env m events s) (r : FsRequest)
    {place : List UnixPath.Text} {node : Node}
    (hnode : (s.step env (.request r)).mounted.cache.files place = some node) :
    m.cache.files place = some node ∨ LeftBy env m (events ++ [.request r]) place node := by
  have hold : s.mounted.cache.files place = some node →
      m.cache.files place = some node ∨ LeftBy env m (events ++ [.request r]) place node :=
    fun hnode => (h.origin place node hnode).imp_right fun hleft => hleft.later _
  have hmounted : (s.step env (.request r)).mounted = (answer env s.mounted r).2 := by rw [step_request hrunning]
  obtain ⟨-, hsame | ⟨e, ino, fileId, cacheRoot, rfl, hid, hcache, hdisk⟩⟩ :=
    (answer_moves env s.mounted r).disk hleaves h.completed
  · rw [hmounted, hsame] at hnode
    exact hold hnode
  · rw [← hmounted] at hdisk
    rcases hdisk.left place node hnode with hnode | hleft
    · exact hold hnode
    · exact .inr ⟨s, e, ino, fileId, cacheRoot, asked_last hs hid, hcache, hleft⟩

/-- A file that is open after a request was opened by it, and nothing has been read yet, or it was open before. -/
theorem Snapshots.handles_request (hleaves : ∀ fileId, ContentCache.Leaves env fileId)
    (hs : s = (start m).run env events) (hrunning : s.running = true) (h : Snapshots env m events s) (r : FsRequest)
    {fh : UInt64} {file : OpenFile} (hfile : (s.step env (.request r)).mounted.openFiles fh = some file) :
    ReadsOne env m (events ++ [.request r]) (s.step env (.request r)) fh file := by
  have hmoves := answer_moves env s.mounted r
  obtain ⟨hroot, hdisk⟩ := hmoves.disk hleaves h.completed
  rw [step_request hrunning] at hfile ⊢
  unfold ReadsOne
  rw [since_concat, sinceNext]
  rcases hmoves.openFiles hleaves h.completed hfile with
    ⟨e, ino, fileId, cacheRoot, node, hentry, hid, hcache, hpath, hnode⟩ | ⟨hopened, hreleased, hopen⟩
  · have hopened : handleOpened (r, (answer env s.mounted r).1) = some fh := by
      rw [hentry]
      rfl
    rw [if_pos hopened]
    refine ⟨cacheRoot, fileId, node, hroot.trans hcache, hpath, hnode, ?_⟩
    rintro post ⟨⟩
    obtain rfl : r = .openFile e ino := congrArg Prod.fst hentry
    refine ⟨⟨s, e, ino, asked_last hs hid, by rw [hentry]⟩, ?_⟩
    intro sys offset size reply hmem
    cases hmem
  · obtain ⟨cacheRoot, fileId, node, hcache, hpath, hnode, hsince⟩ := h.handles fh file hopen
    rw [if_neg hopened, if_neg hreleased]
    refine ⟨cacheRoot, fileId, node, hroot.trans hcache, hpath, ?_, fun post hpost => ?_⟩
    · rcases hdisk with hsame | ⟨_, _, _, _, -, -, -, hdisk⟩
      · rw [hsame]
        exact hnode
      · exact hdisk.kept _ node hnode
    · obtain ⟨before, hbefore, rfl⟩ := Option.map_eq_some_iff.1 hpost
      obtain ⟨hfor, hreads⟩ := hsince before hbefore
      refine ⟨hfor.later _ _, fun sys offset size reply hmem => ?_⟩
      rcases List.mem_append.1 hmem with hmem | hmem
      · exact hreads sys offset size reply hmem
      · obtain ⟨rfl, rfl⟩ := Prod.mk.inj (List.mem_singleton.1 hmem)
        rw [hmoves.reply_read, read_cached hopen hcache, hnode]

theorem Snapshots.request (hleaves : ∀ fileId, ContentCache.Leaves env fileId) (hs : s = (start m).run env events)
    (hrunning : s.running = true) (h : Snapshots env m events s) (r : FsRequest) :
    Snapshots env m (events ++ [.request r]) (s.step env (.request r)) where
  completed := step_completed hleaves h.completed _
  origin _ _ hnode := h.origin_request hleaves hs hrunning r hnode
  handles _ _ hfile := h.handles_request hleaves hs hrunning r hfile

end

theorem Snapshots.step (hleaves : ∀ fileId, ContentCache.Leaves env fileId) {events : List FsEvent}
    {s : MountSession} (hs : s = (start m).run env events) (h : Snapshots env m events s) (event : FsEvent) :
    Snapshots env m (events ++ [event]) (s.step env event) := by
  -- what leaves the disk, the handles and what was served as they are
  have hidle : ∀ {mounted : MountedFS}, mounted.contentCache = s.mounted.contentCache →
      mounted.cache.files = s.mounted.cache.files → mounted.cache.locks = s.mounted.cache.locks →
      mounted.openFiles = s.mounted.openFiles →
        Snapshots env m (events ++ [event]) ⟨mounted, s.running, s.served⟩ := by
    intro mounted hroot hfiles hlocks hopen
    constructor
    · intro cacheRoot hcache fileId hlock
      rw [hlocks] at hlock
      rw [hfiles]
      exact h.completed cacheRoot (hroot ▸ hcache) fileId hlock
    · intro place node hnode
      rw [hfiles] at hnode
      exact (h.origin place node hnode).imp_right fun hleft => hleft.later event
    · intro fh file hfile
      rw [hopen] at hfile
      obtain ⟨cacheRoot, fileId, node, hcache, hpath, hnode, hsince⟩ := h.handles fh file hfile
      refine ⟨cacheRoot, fileId, node, hroot.trans hcache, hpath, (congrFun hfiles _).trans hnode, fun post hpost => ?_⟩
      obtain ⟨hfor, hreads⟩ := hsince post hpost
      have hfor := hfor.later event []
      rw [List.append_nil, List.append_nil] at hfor
      exact ⟨hfor, hreads⟩
  cases event with
  | background write => exact hidle rfl rfl rfl rfl
  | request r =>
    cases hrunning : s.running with
    | true => exact h.request hleaves hs hrunning r
    | false =>
      have hstep : s.step env (.request r) = ⟨s.mounted, s.running, s.served⟩ := by
        unfold MountSession.step
        simp only [hrunning, Bool.false_eq_true, if_false]
        rw [← hrunning]
      rw [hstep]
      exact hidle rfl rfl rfl rfl

theorem run_snapshots (hleaves : ∀ fileId, ContentCache.Leaves env fileId) (hcompleted : Completed env m)
    (hclosed : ∀ fh, m.openFiles fh = none) (events : List FsEvent) :
    Snapshots env m events ((start m).run env events) := by
  induction events using List.reverseRecOn with
  | nil =>
    refine ⟨hcompleted, fun place node hnode => .inl hnode, fun fh file hfile => ?_⟩
    cases (hclosed fh).symm.trans hfile
  | append_singleton events event ih =>
    have hrun : (start m).run env (events ++ [event]) = ((start m).run env events).step env event := by
      unfold MountSession.run
      rw [List.foldl_append]
      rfl
    rw [hrun]
    exact ih.step hleaves rfl event

/-- What is open is a copy on the disk of the file it was opened for. -/
theorem Snapshots.open {events : List FsEvent} {s : MountSession} (h : Snapshots env m events s)
    (hnumbered : s.Numbered) {fh : UInt64} {post : List (FsRequest × FsReply)} (hpost : OpenSince fh s.served post) :
    ∃ cacheRoot fileId node, s.mounted.contentCache = some cacheRoot ∧
      OpenedFor env m events s.served fh fileId post ∧
      s.mounted.cache.files (cachePlace env cacheRoot fileId) = some node ∧
      ∀ sys offset size reply, (FsRequest.read sys fh offset size, reply) ∈ post →
        reply = replyOf (readNode sys (some node) offset size) := by
  have hsince := since_eq_some.2 hpost
  have hopen := hnumbered.isOpen fh
  rw [hsince] at hopen
  obtain ⟨file, hfile⟩ := Option.isSome_iff_exists.1 hopen
  obtain ⟨cacheRoot, fileId, node, hroot, hpath, hnode, hall⟩ := h.handles fh file hfile
  obtain ⟨hfor, hreads⟩ := hall post hsince
  have hnode : s.mounted.cache.files (cachePlace env cacheRoot fileId) = some node :=
    (congrArg (fun path => s.mounted.cache.files (env.place path)) hpath).symm.trans hnode
  exact ⟨cacheRoot, fileId, node, hroot, hfor, hnode, hreads⟩

/-- In every session of a new file system over downloads that leave what they report, whatever other threads do to the
database: all reads through a handle since it was opened are of one copy, at the cache place of the file it was opened
for. The copy is still there; it was on the disk at the start, or an `open` of the session has downloaded it, whole or
in part, to this place, where nothing was. -/
theorem reads_of_handle (env : CacheEnv) (hleaves : ∀ fileId, ContentCache.Leaves env fileId)
    (contentCache : Option UnixPath.Text) (inodeManager : InodeManager) (accountId : AccountId) (db : Database)
    (files : LocalDisk) (events : List FsEvent) (m : MountedFS) (s : MountSession)
    (hm : m = MountedFS.fresh contentCache inodeManager accountId db files) (hs : s = (start m).run env events)
    (fh : UInt64) (post : List (FsRequest × FsReply)) (hpost : OpenSince fh s.served post) :
    ∃ cacheRoot fileId node, s.mounted.contentCache = some cacheRoot ∧
      OpenedFor env m events s.served fh fileId post ∧
      s.mounted.cache.files (cachePlace env cacheRoot fileId) = some node ∧
      (files (cachePlace env cacheRoot fileId) = some node ∨
        LeftBy env m events (cachePlace env cacheRoot fileId) node) ∧
      ∀ sys offset size reply, (FsRequest.read sys fh offset size, reply) ∈ post →
        reply = replyOf (readNode sys (some node) offset size) := by
  subst hm hs
  have hrun : Snapshots env (MountedFS.fresh contentCache inodeManager accountId db files) events _ :=
    run_snapshots hleaves (start_completed env contentCache inodeManager accountId db files) (fun _ => rfl) events
  obtain ⟨cacheRoot, fileId, node, hroot, hfor, hnode, hreads⟩ :=
    hrun.open (run_numbered env (start_numbered contentCache inodeManager accountId db files) events) hpost
  exact ⟨cacheRoot, fileId, node, hroot, hfor, hnode, hrun.origin _ node hnode, hreads⟩

theorem threeBytes_leaves (fileId : FileId) : ContentCache.Leaves threeBytes fileId := fun _ _ => rfl

/-- The sample session before its handle is released. -/
def openSession : MountSession := (start sampleMount).run threeBytes sampleEvents.dropLast

theorem reads_of_handle_sample : ∃ cacheRoot fileId node,
    openSession.mounted.contentCache = some cacheRoot ∧
      openSession.mounted.cache.files (cachePlace threeBytes cacheRoot fileId) = some node ∧
      LeftBy threeBytes sampleMount sampleEvents.dropLast (cachePlace threeBytes cacheRoot fileId) node := by
  have hopen : (since 1 openSession.served).isSome := by decide +kernel
  obtain ⟨post, hpost⟩ := Option.isSome_iff_exists.1 hopen
  obtain ⟨cacheRoot, fileId, node, hroot, -, hnode, horigin, -⟩ := reads_of_handle threeBytes threeBytes_leaves
    (some (UnixPath.join ['/', 'c'] ['g'])) (CloudSyncFS.datedFs DateTime.epoch).inodeManager sampleAccount
    (CloudSyncFS.datedFs DateTime.epoch).metadataCache.db (fun _ => none) sampleEvents.dropLast sampleMount openSession
    rfl rfl 1 post (since_eq_some.1 hpost)
  -- nothing was on the disk at the start
  exact ⟨cacheRoot, fileId, node, hroot, hnode, horigin.resolve_left fun h => by cases h⟩

/-! ## Files read in parts -/

/-- The part that a served request has read through the handle. -/
def partOf (fh : UInt64) : FsRequest × FsReply → Option (PartRead UInt8)
  | (.read _ fh' offset size, .data (.ok data)) =>
    if fh' = fh then some ⟨offset.toInt.toNat, size.toNat, data⟩ else none
  | _ => none

/-- The parts read through the handle, in order. -/
def partsOf (fh : UInt64) (served : List (FsRequest × FsReply)) : List (PartRead UInt8) :=
  served.filterMap (partOf fh)

theorem partOf_eq_some {fh : UInt64} {entry : FsRequest × FsReply} {part : PartRead UInt8}
    (h : partOf fh entry = some part) : ∃ sys offset size data,
      entry = (.read sys fh offset size, .data (.ok data)) ∧ part = ⟨offset.toInt.toNat, size.toNat, data⟩ := by
  unfold partOf at h
  split at h
  · split at h
    · rename_i hfh
      cases h
      exact ⟨_, _, _, _, by rw [hfh], rfl⟩
    · cases h
  · cases h

/-- A read that returned something was of a file. -/
theorem replyOf_eq_ok {sys : ReadSys} {node : Node} {offset : Int64} {size : UInt32} {data : Bytes}
    (h : FsReply.data (.ok data) = replyOf (readNode sys (some node) offset size)) :
    ∃ content, node = .file content ∧ readNode sys (some (.file content)) offset size = .ok data := by
  cases hread : readNode sys (some node) offset size with
  | error e =>
    rw [hread] at h
    cases h
  | ok data' =>
    rw [hread] at h
    cases h
    cases node with
    | file content => exact ⟨content, rfl, hread⟩
    | dir =>
      unfold readNode at hread
      split at hread
      · cases hread
      · simp only at hread
        split at hread <;> cases hread

/-- In every session of a new file system, whatever is served in between: when each read through a handle starts where
the one before it ended, what was read is the start of the copy on the disk, and all of it once a read that asked for
something has returned nothing. -/
theorem read_in_parts (env : CacheEnv) (hleaves : ∀ fileId, ContentCache.Leaves env fileId)
    (contentCache : Option UnixPath.Text) (inodeManager : InodeManager) (accountId : AccountId) (db : Database)
    (files : LocalDisk) (events : List FsEvent) (s : MountSession)
    (hs : s = (start (MountedFS.fresh contentCache inodeManager accountId db files)).run env events)
    (fh : UInt64) (post : List (FsRequest × FsReply)) (hpost : OpenSince fh s.served post)
    (hsome : partsOf fh post ≠ []) (hparts : Consecutive 0 (partsOf fh post)) :
    ∃ cacheRoot fileId content, s.mounted.contentCache = some cacheRoot ∧
      s.mounted.cache.files (cachePlace env cacheRoot fileId) = some (.file content) ∧
      assembled (partsOf fh post) = content.take (assembled (partsOf fh post)).length ∧
      ((∃ last ∈ partsOf fh post, last.size ≠ 0 ∧ last.part = []) → assembled (partsOf fh post) = content) := by
  subst hs
  have hrun : Snapshots env (MountedFS.fresh contentCache inodeManager accountId db files) events _ :=
    run_snapshots hleaves (start_completed env contentCache inodeManager accountId db files) (fun _ => rfl) events
  obtain ⟨cacheRoot, fileId, node, hroot, -, hnode, hreads⟩ :=
    hrun.open (run_numbered env (start_numbered contentCache inodeManager accountId db files) events) hpost
  have hpart : ∀ part ∈ partsOf fh post, ∃ content, node = .file content ∧ part.Of content := by
    intro part hmem
    obtain ⟨entry, hentry, hof⟩ := List.mem_filterMap.1 hmem
    obtain ⟨sys, offset, size, data, rfl, rfl⟩ := partOf_eq_some hof
    obtain ⟨content, hcontent, hread⟩ := replyOf_eq_ok (hreads sys offset size _ hentry)
    exact ⟨content, hcontent, ContentCache.readNode_of hread⟩
  obtain ⟨first, hfirst⟩ := List.exists_mem_of_ne_nil _ hsome
  obtain ⟨content, rfl, -⟩ := hpart first hfirst
  have hof : ∀ part ∈ partsOf fh post, part.Of content := by
    intro part hmem
    obtain ⟨content', heq, hof⟩ := hpart part hmem
    cases heq
    exact hof
  refine ⟨cacheRoot, fileId, content, hroot, hnode, PartReads.assembled_eq_take hof hparts, ?_⟩
  rintro ⟨last, hlast, hsize, hnil⟩
  exact PartReads.assembled_eq_self hof hparts hlast hsize hnil

/-- The file of the sample is read whole, in two parts. -/
theorem read_in_parts_sample : ∃ cacheRoot fileId,
    openSession.mounted.contentCache = some cacheRoot ∧
      openSession.mounted.cache.files (cachePlace threeBytes cacheRoot fileId) = some (.file [1, 2, 3]) := by
  have hsince : (since 1 openSession.served).map (partsOf 1) = some [⟨0, 2, [1, 2]⟩, ⟨2, 2, [3]⟩, ⟨3, 2, []⟩] := by
    decide +kernel
  obtain ⟨post, hpost, hparts⟩ := Option.map_eq_some_iff.1 hsince
  obtain ⟨cacheRoot, fileId, content, hroot, hnode, -, hall⟩ := read_in_parts threeBytes threeBytes_leaves
    (some (UnixPath.join ['/', 'c'] ['g'])) (CloudSyncFS.datedFs DateTime.epoch).inodeManager sampleAccount
    (CloudSyncFS.datedFs DateTime.epoch).metadataCache.db (fun _ => none) sampleEvents.dropLast openSession rfl 1 post
    (since_eq_some.1 hpost) (by rw [hparts]; exact List.cons_ne_nil _ _)
    (by rw [hparts]; exact ⟨rfl, rfl, rfl, trivial⟩)
  rw [hparts] at hall
  obtain rfl : [1, 2, 3] = content := hall ⟨⟨3, 2, []⟩, by simp, by decide, rfl⟩
  exact ⟨cacheRoot, fileId, hroot, hnode⟩

end MountSession

end CloudSync
