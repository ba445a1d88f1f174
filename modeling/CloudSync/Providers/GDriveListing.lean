/-
The pages of `files.list`. Drive answers a listing with one page of files and the token of the next page, if there
are more. `list_folder` makes one request and asks for the files only, so it returns the items of the first page.
-/
import CloudSync.Providers.GDriveFeed

namespace CloudSync.GDrive

/-! ## Requests -/

/-- The parameters of a `files.list` request. -/
structure FilesRequest where
  q : Str
  fields : Str
  pageToken : Option Str
deriving DecidableEq

/-- A page of `files.list`. -/
structure DriveFileList where
  files : Option (List DriveFile)
  nextPageToken : Option Str
deriving DecidableEq

/-- The request of `list_folder`. -/
def rootRequest : FilesRequest where
  q := "trashed = false and 'root' in parents".toList
  fields := "files(id,name,mimeType,size,md5Checksum,modifiedTime,createdTime)".toList
  pageToken := none

/-- `list_folder` over the answers of `files.list`: one request. -/
def listFolderVia (filesList : FilesRequest → Except Str DriveFileList) (path : CloudPath) :
    Except CloudError (List CloudItem) :=
  listFolder path ((filesList rootRequest).map DriveFileList.files)

/-- From a request on, the pages that one request after another gives, each with the token of the page before. -/
inductive ListPages (filesList : FilesRequest → Except Str DriveFileList) :
    FilesRequest → List (List DriveFile) → Prop
  | last {request : FilesRequest} {page : DriveFileList} (h : filesList request = .ok page)
      (hnext : page.nextPageToken = none) : ListPages filesList request [page.files.getD []]
  | more {request : FilesRequest} {page : DriveFileList} {next : Str} {pages : List (List DriveFile)}
      (h : filesList request = .ok page) (hnext : page.nextPageToken = some next)
      (rest : ListPages filesList { request with pageToken := some next } pages) :
      ListPages filesList request (page.files.getD [] :: pages)

theorem ListPages.first {filesList : FilesRequest → Except Str DriveFileList} {request : FilesRequest}
    {pages : List (List DriveFile)} (h : ListPages filesList request pages) :
    ∃ page rest, filesList request = .ok page ∧ pages = page.files.getD [] :: rest := by
  cases h with
  | last h _ => exact ⟨_, [], h, rfl⟩
  | more h _ _ => exact ⟨_, _, h, rfl⟩

/-! ## Complete files -/

/-- A file with an id, a name and a modification time. -/
def Complete (file : DriveFile) : Prop := file.id ≠ none ∧ file.name ≠ none ∧ file.modifiedTime ≠ none

instance (file : DriveFile) : Decidable (Complete file) := by unfold Complete; infer_instance

/-- The complete files are those that convert. -/
theorem complete_iff {file : DriveFile} : Complete file ↔ ∃ item, fileToCloudItem file = .ok item := by
  unfold Complete fileToCloudItem
  cases file.id with
  | none => exact iff_of_false (fun h => h.1 rfl) (by rintro ⟨_, h⟩; cases h)
  | some id =>
    cases file.name with
    | none => exact iff_of_false (fun h => h.2.1 rfl) (by rintro ⟨_, h⟩; cases h)
    | some name =>
      cases file.modifiedTime with
      | none => exact iff_of_false (fun h => h.2.2 rfl) (by rintro ⟨_, h⟩; cases h)
      | some modified =>
        exact iff_of_true ⟨Option.some_ne_none _, Option.some_ne_none _, Option.some_ne_none _⟩ ⟨_, rfl⟩

theorem cloudItems_count {files : List DriveFile} {file : DriveFile} {item : CloudItem}
    (hids : (files.map DriveFile.id).Nodup) (hfile : file ∈ files) (hitem : fileToCloudItem file = .ok item) :
    (cloudItems files).count item = 1 :=
  List.count_eq_one_of_mem (cloudItems_nodup hids).of_map (mem_cloudItems.2 ⟨file, hfile, hitem⟩)

/-! ## The listing -/

/-- For every Drive, and however the files of its root are split into pages: the listing has each complete file once
exactly when every complete file is on the first page. -/
theorem listFolder_complete_iff (d : Drive) (filesList : FilesRequest → Except Str DriveFileList)
    (pages : List (List DriveFile)) (hpages : ListPages filesList rootRequest pages)
    (hall : pages.flatten.Perm d.filesList) :
    (∃ items, listFolderVia filesList CloudPath.root = .ok items ∧
      ∀ n ∈ d.nodes, n.Matches → Complete n.toFile →
        ∃ item, fileToCloudItem n.toFile = .ok item ∧ items.count item = 1) ↔
      ∀ page ∈ pages.tail, ∀ file ∈ page, ¬ Complete file := by
  obtain ⟨first, rest, hfirst, rfl⟩ := hpages.first
  have hlist : listFolderVia filesList CloudPath.root = .ok (cloudItems (first.files.getD [])) := by
    unfold listFolderVia
    rw [hfirst]
    rfl
  have hids : ((first.files.getD [] ++ rest.flatten).map DriveFile.id).Nodup := by
    refine (hall.map DriveFile.id).nodup_iff.2 ?_
    unfold Drive.filesList
    rw [List.map_map]
    have hsome : (d.nodes.map fun n => some n.id).Nodup :=
      List.map_map (g := some) ▸ d.idsNodup.map (Option.some_injective _)
    exact hsome.sublist (List.filter_sublist.map _)
  rw [List.map_append, List.nodup_append] at hids
  obtain ⟨hidsFirst, -, hdisjoint⟩ := hids
  have hmem : ∀ file, file ∈ first.files.getD [] ++ rest.flatten ↔ ∃ n ∈ d.nodes, n.Matches ∧ n.toFile = file := by
    intro file
    rw [show first.files.getD [] ++ rest.flatten = (first.files.getD [] :: rest).flatten from rfl, hall.mem_iff]
    unfold Drive.filesList
    simp only [List.mem_map, List.mem_filter, decide_eq_true_eq, and_assoc]
  constructor
  · rintro ⟨items, hitems, hcount⟩ page hpage file hfile hcomplete
    rw [hlist] at hitems
    cases hitems
    have hlater : file ∈ rest.flatten := List.mem_flatten.2 ⟨page, hpage, hfile⟩
    obtain ⟨n, hn, hmatches, rfl⟩ := (hmem file).1 (List.mem_append_right _ hlater)
    obtain ⟨item, hitem, hone⟩ := hcount n hn hmatches hcomplete
    -- the item is that of a file of the first page, which has the same id
    obtain ⟨file', hfile', hitem'⟩ := mem_cloudItems.1 (List.count_pos_iff.1 (hone ▸ Nat.one_pos))
    refine hdisjoint _ (List.mem_map_of_mem hfile') _ (List.mem_map_of_mem hlater) ?_
    rw [(fileToCloudItem_ok hitem).1, (fileToCloudItem_ok hitem').1]
  · intro hlater
    refine ⟨_, hlist, fun n hn hmatches hcomplete => ?_⟩
    obtain ⟨item, hitem⟩ := complete_iff.1 hcomplete
    refine ⟨item, hitem, cloudItems_count hidsFirst ?_ hitem⟩
    rcases List.mem_append.1 ((hmem n.toFile).2 ⟨n, hn, hmatches, rfl⟩) with hfile | hfile
    · exact hfile
    · obtain ⟨page, hpage, hfile⟩ := List.mem_flatten.1 hfile
      exact absurd hcomplete (hlater page hpage _ hfile)

/-! ## A split listing -/

/-- Drive with these pages, the token of a page being its number. -/
def inPages (pages : List (List DriveFile)) (request : FilesRequest) : Except Str DriveFileList :=
  let k := (request.pageToken.map List.length).getD 0
  .ok ⟨some (pages.getD k []), if k + 1 < pages.length then some (List.replicate (k + 1) '1') else none⟩

def rootFile (id : Str) (name : Option Str) : DriveNode :=
  ⟨id, name, none, none, none, some DateTime.epoch, none, false, ["root".toList]⟩

/-- A Drive with two files, the second one with this name or none. -/
def twoFiles (name : Option Str) : Drive where
  nodes := [rootFile ['f'] (some ['n']), rootFile ['g'] name]
  idsNodup := by simp [rootFile]

/-- Each of the two files on a page of its own. -/
def split (name : Option Str) : FilesRequest → Except Str DriveFileList :=
  inPages [[(rootFile ['f'] (some ['n'])).toFile], [(rootFile ['g'] name).toFile]]

theorem split_pages (name : Option Str) : ListPages (split name) rootRequest
    [[(rootFile ['f'] (some ['n'])).toFile], [(rootFile ['g'] name).toFile]] := by
  have hlast : ListPages (split name) { rootRequest with pageToken := some ['1'] }
      [(⟨some [(rootFile ['g'] name).toFile], none⟩ : DriveFileList).files.getD []] := .last rfl rfl
  have hfirst : split name rootRequest = .ok ⟨some [(rootFile ['f'] (some ['n'])).toFile], some ['1']⟩ := rfl
  exact .more hfirst rfl hlast

/-- The file of the second page has no name. -/
theorem listFolder_complete_sample : ∃ items, listFolderVia (split none) CloudPath.root = .ok items ∧
    ∀ n ∈ (twoFiles none).nodes, n.Matches → Complete n.toFile →
      ∃ item, fileToCloudItem n.toFile = .ok item ∧ items.count item = 1 :=
  (listFolder_complete_iff (twoFiles none) (split none) _ (split_pages none) (by decide)).2 (by decide)

/-- Both files are complete, and the second one is not listed. -/
theorem second_page_missing :
    ListPages (split (some ['m'])) rootRequest
        [[(rootFile ['f'] (some ['n'])).toFile], [(rootFile ['g'] (some ['m'])).toFile]] ∧
      (rootFile ['g'] (some ['m'])).Matches ∧ Complete (rootFile ['g'] (some ['m'])).toFile ∧
      ∃ items, listFolderVia (split (some ['m'])) CloudPath.root = .ok items ∧
        ∀ item ∈ items, item.id ≠ ⟨['g']⟩ := by
  refine ⟨split_pages _, by decide, by decide, _, rfl, ?_⟩
  decide

end CloudSync.GDrive
