/-
The change feed of `GoogleDriveProvider`, and the Drive it reads: the files of a Drive, what other clients
do to them, and what `files.list` and `changes.list` answer about them. The client library refuses the call of
`changes.list` that `get_changes` makes.
-/
import CloudSync.Lib.UniqueKey
import CloudSync.Providers.GDrive

namespace CloudSync.GDrive

/-! ## `get_changes` -/

/-- A file resource of the change feed. -/
structure FeedFile extends DriveFile where
  trashed : Option Bool
deriving DecidableEq

/-- The fields of a Drive change the provider reads. -/
structure DriveChange where
  fileId : Option Str
  removed : Option Bool
  time : Option DateTime
  file : Option FeedFile
deriving DecidableEq

/-- A page of `changes.list`. -/
structure DriveChangeList where
  changes : Option (List DriveChange)
  nextPageToken : Option Str
  newStartPageToken : Option Str
deriving DecidableEq

/-- The body of the loop over the changes; a change without a file id, and one whose file does not
convert, are skipped. -/
def toChange (now : DateTime) (change : DriveChange) : Option Change :=
  match change.fileId with
  | none => none
  | some fileId =>
    let deleted := change.removed.getD false || (change.file.bind FeedFile.trashed).getD false
    let timestamp := change.time.getD now
    if deleted then some ⟨none, ⟨fileId⟩, deleted, timestamp⟩
    else match change.file with
      | none => some ⟨none, ⟨fileId⟩, deleted, timestamp⟩
      | some file => match fileToCloudItem file.toDriveFile with
        | .ok item => some ⟨some item, ⟨fileId⟩, deleted, timestamp⟩
        | .error _ => none

/-- What the Drive API answers, and the client library: it refuses an additional query parameter of `changes.list` for
which it has a setter of its own. -/
structure DriveApi where
  filesList : Except Str (Option (List DriveFile))
  startPageToken : Except Str (Option Str)
  changesList : Str → Except Str DriveChangeList
  refusesParam : Str → Option Str

/-- The client library as it is locked: it has a setter for `includeRemoved`. -/
def setterRefusal (name : Str) : Option Str := if name = "includeRemoved".toList then some name else none

/-- The query parameters `get_changes` adds by their names. -/
def changesParams : List Str := ["fields".toList, "includeRemoved".toList]

/-- The call of `changes.list`. A parameter that is refused ends it before anything is sent. -/
def DriveApi.callChangesList (api : DriveApi) (pageToken : Str) : Except Str DriveChangeList :=
  match changesParams.findSome? api.refusesParam with
  | some e => .error e
  | none => api.changesList pageToken

def getChanges (api : DriveApi) (now : DateTime) (cursor : Option Cursor) : Except CloudError ChangeList :=
  match cursor with
  | none => match api.startPageToken with
    | .error e => .error (.providerApi "gdrive".toList ("Failed to get start page token: ".toList ++ e))
    | .ok none => .error (providerApi "Start page token missing from response")
    -- no changes, and the token of the current position
    | .ok (some token) => .ok ⟨[], token, false⟩
  | some pageToken => match api.callChangesList pageToken with
    | .error e => .error (.providerApi "gdrive".toList ("Failed to list changes: ".toList ++ e))
    | .ok changeList =>
      let changes := (changeList.changes.getD []).filterMap (toChange now)
      match changeList.nextPageToken with
      | some nextPageToken => .ok ⟨changes, nextPageToken, true⟩
      | none => match changeList.newStartPageToken with
        | some cursor => .ok ⟨changes, cursor, false⟩
        | none => .error (providerApi "Neither nextPageToken nor newStartPageToken present")

/-- A page of changes is never got from a library with a setter for `includeRemoved`. -/
theorem getChanges_refused {api : DriveApi} {e : Str} (h : api.refusesParam "includeRemoved".toList = some e)
    (now : DateTime) (cursor : Cursor) : ∃ e, getChanges api now (some cursor) =
      .error (.providerApi "gdrive".toList ("Failed to list changes: ".toList ++ e)) := by
  obtain ⟨e', he'⟩ : ∃ e', changesParams.findSome? api.refusesParam = some e' := by
    unfold changesParams
    rw [List.findSome?_cons]
    cases api.refusesParam "fields".toList with
    | some e' => exact ⟨e', rfl⟩
    | none => exact ⟨e, by rw [List.findSome?_cons, h]⟩
  unfold getChanges DriveApi.callChangesList
  rw [he']
  exact ⟨e', rfl⟩

/-! ## A Drive -/

/-- A file of a Drive. A file in a trashed folder counts as trashed. -/
structure DriveNode where
  id : Str
  name : Option Str
  mimeType : Option Str
  size : Option Int64
  md5Checksum : Option Str
  modifiedTime : Option DateTime
  createdTime : Option DateTime
  trashed : Bool
  parents : List Str
deriving DecidableEq

namespace DriveNode

def toFile (n : DriveNode) : DriveFile :=
  ⟨some n.id, n.name, n.mimeType, n.size, n.md5Checksum, n.modifiedTime, n.createdTime⟩

/-- The query `trashed = false and 'root' in parents`. -/
def Matches (n : DriveNode) : Prop := n.trashed = false ∧ "root".toList ∈ n.parents

instance (n : DriveNode) : Decidable n.Matches := by unfold Matches; infer_instance

/-- The item of a file, if it converts. -/
def item (n : DriveNode) : Option CloudItem := (fileToCloudItem n.toFile).toOption

theorem item_id {n : DriveNode} {item : CloudItem} (h : n.item = some item) : item.id.val = n.id := by
  unfold DriveNode.item at h
  cases hok : fileToCloudItem n.toFile with
  | error e => rw [hok] at h; cases h
  | ok item' =>
    rw [hok] at h
    cases h
    exact (Option.some.inj (fileToCloudItem_ok hok).1).symm

end DriveNode

/-- The files of a Drive, with different ids. -/
structure Drive where
  nodes : List DriveNode
  idsNodup : (nodes.map DriveNode.id).Nodup

/-- What other clients do to the files. Trashing or restoring a folder does the same to all files below it. -/
inductive DriveEvent
  | create (node : DriveNode)
  | edit (id : Str) (content : DriveFile)
  | trash (ids : List Str)
  | restore (ids : List Str)
  | move (id : Str) (parents : List Str)
  | delete (id : Str)

/-- The ids an event is about. -/
def DriveEvent.touched : DriveEvent → List Str
  | .create node => [node.id]
  | .edit id _ => [id]
  | .trash ids => ids
  | .restore ids => ids
  | .move id _ => [id]
  | .delete id => [id]

namespace Drive

def node (d : Drive) (id : Str) : Option DriveNode := d.nodes.find? (·.id = id)

theorem node_eq_some {d : Drive} {id : Str} {n : DriveNode} : d.node id = some n ↔ n ∈ d.nodes ∧ n.id = id :=
  UniqueKey.find_eq_some d.idsNodup

/-- Some files change, and keep their ids. -/
def update (d : Drive) (ids : List Str) (f : DriveNode → DriveNode) (hf : ∀ n, (f n).id = n.id) : Drive where
  nodes := d.nodes.map fun n => if n.id ∈ ids then f n else n
  idsNodup := by
    rw [List.map_map]
    refine (List.map_congr_left fun n _ => ?_) ▸ d.idsNodup
    show n.id = (if n.id ∈ ids then f n else n).id
    split
    · exact (hf n).symm
    · rfl

def apply (d : Drive) : DriveEvent → Drive
  | .create node =>
    if h : node.id ∈ d.nodes.map DriveNode.id then d
    else
      { nodes := d.nodes ++ [node]
        idsNodup := by
          rw [List.map_append]
          exact List.nodup_append_comm.1 (List.nodup_cons.2 ⟨h, d.idsNodup⟩) }
  | .edit id content => d.update [id] (fun n => { n with
      name := content.name
      mimeType := content.mimeType
      size := content.size
      md5Checksum := content.md5Checksum
      modifiedTime := content.modifiedTime
      createdTime := content.createdTime }) fun _ => rfl
  | .trash ids => d.update ids (fun n => { n with trashed := true }) fun _ => rfl
  | .restore ids => d.update ids (fun n => { n with trashed := false }) fun _ => rfl
  | .move id parents => d.update [id] (fun n => { n with parents := parents }) fun _ => rfl
  | .delete id =>
    { nodes := d.nodes.filter (·.id ≠ id)
      idsNodup := d.idsNodup.sublist (List.filter_sublist.map _) }

def after (d : Drive) (events : List DriveEvent) : Drive := events.foldl apply d

theorem node_congr {d d' : Drive} {id : Str} (h : ∀ n, n.id = id → (n ∈ d'.nodes ↔ n ∈ d.nodes)) :
    d'.node id = d.node id := by
  refine Option.ext fun n => ?_
  rw [node_eq_some, node_eq_some]
  exact ⟨fun ⟨hn, hid⟩ => ⟨(h n hid).1 hn, hid⟩, fun ⟨hn, hid⟩ => ⟨(h n hid).2 hn, hid⟩⟩

theorem node_update {d : Drive} {ids : List Str} {f : DriveNode → DriveNode} (hf : ∀ n, (f n).id = n.id) {id : Str}
    (h : id ∉ ids) : (d.update ids f hf).node id = d.node id := by
  refine node_congr fun n hid => ?_
  unfold update
  rw [List.mem_map]
  constructor
  · rintro ⟨n', hn', rfl⟩
    split at hid
    · rename_i hmem
      exact absurd (hid ▸ (hf n').symm ▸ hmem) h
    · rename_i hmem
      rwa [if_neg hmem]
  · exact fun hn => ⟨n, hn, if_neg (hid ▸ h)⟩

/-- A file no event is about stays as it is. -/
theorem node_apply {d : Drive} {event : DriveEvent} {id : Str} (h : id ∉ event.touched) :
    (d.apply event).node id = d.node id := by
  cases event with
  | create node =>
    simp only [apply]
    split
    · rfl
    · refine node_congr fun n hid => ?_
      have hne : n ≠ node := fun heq => h (List.mem_singleton.2 (hid.symm.trans (congrArg DriveNode.id heq)))
      simp only [List.mem_append, List.mem_singleton, hne, or_false]
  | edit | trash | restore | move =>
    refine node_update (f := ?_) ?_ h
    exact fun _ => rfl
  | delete id' =>
    refine node_congr fun n hid => ?_
    have hne : n.id ≠ id' := fun heq => h (List.mem_singleton.2 (hid.symm.trans heq))
    unfold apply
    simp only [List.mem_filter, decide_eq_true_eq, hne, ne_eq, not_false_eq_true, and_true]

theorem node_after {d : Drive} {events : List DriveEvent} {id : Str} (h : ∀ event ∈ events, id ∉ event.touched) :
    (d.after events).node id = d.node id := by
  induction events generalizing d with
  | nil => rfl
  | cons event events ih =>
    rw [List.forall_mem_cons] at h
    exact (ih h.2).trans (node_apply h.1)

/-- The answer of `files.list` to the query of `list_folder`, all in one page. -/
def filesList (d : Drive) : List DriveFile := (d.nodes.filter fun n => n.Matches).map DriveNode.toFile

/-- What `changes.list` reports about a changed file: its present state, or that it is gone. -/
def report (d : Drive) (time : Str → Option DateTime) (id : Str) : DriveChange :=
  match d.node id with
  | some n => ⟨some id, some false, time id, some ⟨n.toFile, some n.trashed⟩⟩
  | none => ⟨some id, some true, time id, none⟩

end Drive

end CloudSync.GDrive
