/-
`GoogleDriveProvider`: how a file resource becomes a cloud item, the listing of the root folder, and
a download. The answers of the Drive API and of the local disk are arguments. An item's path is its
name after a slash, whatever characters the name has; a download that fails half way leaves the part
it has written.
-/
import CloudSync.Core.Types

namespace CloudSync.GDrive

/-- The fields of a Drive file resource the provider reads. -/
structure DriveFile where
  id : Option Str
  name : Option Str
  mimeType : Option Str
  size : Option Int64
  md5Checksum : Option Str
  modifiedTime : Option DateTime
  createdTime : Option DateTime
deriving DecidableEq

def providerApi (message : String) : CloudError := .providerApi "gdrive".toList message.toList

def fileToCloudItem (file : DriveFile) : Except CloudError CloudItem := do
  let id ← file.id.elim (throw (providerApi "File missing ID field")) pure
  let name ← file.name.elim (throw (providerApi "File missing name field")) pure
  let isFolder := (file.mimeType.map fun mt => decide (mt = "application/vnd.google-apps.folder".toList)).getD false
  let modified ← file.modifiedTime.elim (throw (providerApi "File missing modified_time field")) pure
  return {
    id := ⟨id⟩
    name := name
    path := CloudPath.new ('/' :: name)
    isFolder := isFolder
    size := file.size.map Int64.toUInt64
    contentHash := file.md5Checksum
    modified := modified
    created := file.createdTime
    mimeType := file.mimeType }

/-- The items of the files that convert; the others are skipped with a warning. -/
def cloudItems (files : List DriveFile) : List CloudItem := files.filterMap fun file => (fileToCloudItem file).toOption

/-- `list_folder`, given the answer of `files.list`. -/
def listFolder (path : CloudPath) (response : Except Str (Option (List DriveFile))) :
    Except CloudError (List CloudItem) :=
  if !path.isRoot then
    .error (.invalidOperation
      "Non-root path listing not yet supported - path-to-ID resolution required".toList)
  else match response with
    | .error e => .error (.providerApi "gdrive".toList ("Failed to list files: ".toList ++ e))
    | .ok fileList => .ok (cloudItems (fileList.getD []))

/-- An item has the id and the name of its file, and its path is made of the name. -/
theorem fileToCloudItem_ok {file : DriveFile} {item : CloudItem} (h : fileToCloudItem file = .ok item) :
    file.id = some item.id.val ∧ file.name = some item.name ∧ item.path = CloudPath.new ('/' :: item.name) := by
  unfold fileToCloudItem at h
  cases hid : file.id with
  | none => rw [hid] at h; cases h
  | some id =>
    cases hname : file.name with
    | none => rw [hid, hname] at h; cases h
    | some name =>
      cases hmod : file.modifiedTime with
      | none => rw [hid, hname, hmod] at h; cases h
      | some modified =>
        rw [hid, hname, hmod] at h
        cases h
        exact ⟨rfl, rfl, rfl⟩

theorem mem_cloudItems {files : List DriveFile} {item : CloudItem} :
    item ∈ cloudItems files ↔ ∃ file ∈ files, fileToCloudItem file = .ok item := by
  unfold cloudItems
  rw [List.mem_filterMap]
  refine exists_congr fun file => and_congr_right fun _ => ?_
  cases fileToCloudItem file <;> simp [Except.toOption]

/-- Files with different ids give items with different ids. -/
theorem cloudItems_nodup {files : List DriveFile} (h : (files.map DriveFile.id).Nodup) :
    ((cloudItems files).map CloudItem.id).Nodup := by
  induction files with
  | nil => exact List.nodup_nil
  | cons file files ih =>
    rw [List.map_cons, List.nodup_cons] at h
    unfold cloudItems
    rw [List.filterMap_cons]
    cases hitem : fileToCloudItem file with
    | error e => exact ih h.2
    | ok item =>
      refine List.nodup_cons.2 ⟨fun hmem => ?_, ih h.2⟩
      obtain ⟨item', hitem', heq⟩ := List.mem_map.1 hmem
      obtain ⟨file', hfile', hok⟩ := mem_cloudItems.1 hitem'
      refine h.1 (List.mem_map.2 ⟨file', hfile', ?_⟩)
      rw [(fileToCloudItem_ok hok).1, (fileToCloudItem_ok hitem).1, heq]

/-! ## Downloads -/

def googleApps : Str := "application/vnd.google-apps.".toList

def isCloudNative (mimeType : Str) : Bool := googleApps.isPrefixOf mimeType

/-- The web address of a cloud-native file; `parseUrl` is `Url::parse`. -/
def buildWebUrl (parseUrl : Str → Option Str) (fileId : FileId) (mimeType : Str) : Option Str :=
  if !isCloudNative mimeType then none
  else
    let baseUrl :=
      if mimeType = "application/vnd.google-apps.document".toList then "https://docs.google.com/document/d"
      else if mimeType = "application/vnd.google-apps.spreadsheet".toList then
        "https://docs.google.com/spreadsheets/d"
      else if mimeType = "application/vnd.google-apps.presentation".toList then
        "https://docs.google.com/presentation/d"
      else if mimeType = "application/vnd.google-apps.form".toList then "https://docs.google.com/forms/d"
      else if mimeType = "application/vnd.google-apps.drawing".toList then "https://docs.google.com/drawings/d"
      else "https://drive.google.com/file/d"
    parseUrl (baseUrl.toList ++ '/' :: fileId.val ++ "/edit".toList)

/-- A frame of the response body: data, of which a failing write keeps only a part, trailers, or an
error. -/
inductive Frame
  | data (bytes : Bytes) (fault : Option (Nat × Str))
  | trailers
  | error (message : Str)
deriving DecidableEq

/-- What the Drive API and the local disk answer during one download. -/
structure Transfer where
  mimeType : Except Str (Option Str)
  media : Except Str Unit
  create : Except Str Unit
  frames : List Frame
  syncAll : Except Str Unit

/-- The loop over the body, with what the file holds so far. -/
def streamLoop (syncAll : Except Str Unit) : List Frame → Bytes → Except CloudError Unit × Bytes
  | [], written => (syncAll.mapError .io, written)
  | .data bytes none :: frames, written => streamLoop syncAll frames (written ++ bytes)
  | .data bytes (some (n, e)) :: _, written => (.error (.io e), written ++ bytes.take n)
  | .trailers :: frames, written => streamLoop syncAll frames written
  | .error e :: _, written =>
    (.error (.providerApi "gdrive".toList ("Failed to read response chunk: ".toList ++ e)), written)

/-- `download` to a path where nothing is: its result, and what is at the path after it. -/
def download (parseUrl : Str → Option Str) (id : FileId) (t : Transfer) : Except CloudError Unit × Option Bytes :=
  match t.mimeType with
  | .error e => (.error (.providerApi "gdrive".toList ("Failed to get file metadata: ".toList ++ e)), none)
  | .ok mimeType =>
    match mimeType.bind (buildWebUrl parseUrl id) with
    | some webUrl => (.error (.cloudNativeFile webUrl), none)
    | none =>
      -- no MIME type, or an address that does not parse: downloaded like any other file
      match t.media with
      | .error e => (.error (.providerApi "gdrive".toList ("Failed to download file: ".toList ++ e)), none)
      | .ok _ =>
        match t.create with
        | .error e => (.error (.io e), none)
        -- from here on the file exists, and no error removes it
        | .ok _ => ((streamLoop t.syncAll t.frames []).1, some (streamLoop t.syncAll t.frames []).2)

/-- The body carries the content: its data is a part of it from the start, and all of it when the
body ends without an error. -/
def Carries : List Frame → Bytes → Prop
  | [], content => content = []
  | .data bytes _ :: frames, content => ∃ rest, content = bytes ++ rest ∧ Carries frames rest
  | .trailers :: frames, content => Carries frames content
  | .error _ :: _, _ => True

theorem streamLoop_spec (syncAll : Except Str Unit) : ∀ (frames : List Frame) {content : Bytes} (written : Bytes),
    Carries frames content →
      (streamLoop syncAll frames written).2 <+: written ++ content ∧
        ((streamLoop syncAll frames written).1 = .ok () → (streamLoop syncAll frames written).2 = written ++ content)
  | [], content, written, h => by
    rw [show content = [] from h, List.append_nil]
    exact ⟨List.prefix_refl _, fun _ => rfl⟩
  | .data bytes none :: frames, content, written, h => by
    obtain ⟨rest, rfl, hrest⟩ := h
    rw [← List.append_assoc]
    exact streamLoop_spec syncAll frames (written ++ bytes) hrest
  | .data bytes (some (n, e)) :: frames, content, written, h => by
    obtain ⟨rest, rfl, -⟩ := h
    refine ⟨(List.prefix_append_right_inj _).2 ((List.take_prefix n bytes).trans (List.prefix_append _ _)), ?_⟩
    intro hok; cases hok
  | .trailers :: frames, content, written, h => streamLoop_spec syncAll frames written h
  | .error e :: frames, content, written, _ => ⟨List.prefix_append _ _, fun hok => by cases hok⟩

/-- A download either fails before it creates the file, or streams the body into it. -/
theorem download_cases (parseUrl : Str → Option Str) (id : FileId) (t : Transfer) :
    (∃ e, download parseUrl id t = (.error e, none)) ∨
      download parseUrl id t = ((streamLoop t.syncAll t.frames []).1, some (streamLoop t.syncAll t.frames []).2) := by
  unfold download
  split
  · exact .inl ⟨_, rfl⟩
  split
  · exact .inl ⟨_, rfl⟩
  split
  · exact .inl ⟨_, rfl⟩
  split
  · exact .inl ⟨_, rfl⟩
  · exact .inr rfl

/-- One attempt to fetch a content to a path where nothing is: a success leaves all of it, a failure
leaves nothing or a part of it from the start. -/
structure Attempt (content : Bytes) where
  result : Except CloudError Unit
  left : Option Bytes
  complete : result = .ok () → left = some content
  part : ∀ bytes, left = some bytes → bytes <+: content

/-- A download is an attempt to fetch the content its body carries. -/
def downloadAttempt (parseUrl : Str → Option Str) (id : FileId) (t : Transfer) {content : Bytes}
    (h : Carries t.frames content) : Attempt content where
  result := (download parseUrl id t).1
  left := (download parseUrl id t).2
  complete := by
    rcases download_cases parseUrl id t with ⟨e, he⟩ | hstream
    · rw [he]; intro hok; cases hok
    · rw [hstream]
      exact fun hok => congrArg some ((streamLoop_spec t.syncAll t.frames [] h).2 hok)
  part := by
    rcases download_cases parseUrl id t with ⟨e, he⟩ | hstream
    · rw [he]; intro bytes hbytes; cases hbytes
    · rw [hstream]
      intro bytes hbytes
      rw [← Option.some.inj hbytes]
      exact (streamLoop_spec t.syncAll t.frames [] h).1

end CloudSync.GDrive
