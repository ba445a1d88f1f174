/-
Where the program writes locally: the destination of a download under the local root, and the cached
copy of a file under the cache root, each against its root once `.` and `..` are resolved. Neither
path is checked, so a name or an id that climbs, or an absolute id, lands where its components lead.
-/
import CloudSync.Sync.Engine
import CloudSync.Vfs.ContentCache

namespace CloudSync

open UnixPath (Inside ComesBack resolve components names isAbsolute)

/-- The destination of a download stays inside the local root if and only if the path's components
come back down through the names of the root they climb past. -/
theorem localPath_inside_iff (cwd : List UnixPath.Text) (localRoot : UnixPath.Text) (path : CloudPath) :
    Inside cwd localRoot (SyncEngine.localPath localRoot path) ↔
      ComesBack (resolve cwd localRoot) (components path.asStr) := by
  unfold SyncEngine.localPath
  rw [UnixPath.inside_join_iff cwd (UnixPath.isAbsolute_dropWhile path.asStr), UnixPath.components_dropWhile]

/-- The cached copy of a file stays inside the cache root if and only if the id is relative and comes
back down to the root, or is absolute and leads through the root. -/
theorem cachedPath_inside_iff (cwd : List UnixPath.Text) (cacheRoot : UnixPath.Text) (fileId : FileId) :
    Inside cwd cacheRoot (ContentCache.cachedPath cacheRoot fileId) ↔
      if isAbsolute fileId.val then resolve cwd cacheRoot <+: names (components fileId.val)
      else ComesBack (resolve cwd cacheRoot) (components fileId.val) := by
  unfold ContentCache.cachedPath
  cases habs : isAbsolute fileId.val with
  | true => rw [if_pos rfl, UnixPath.inside_join_absolute cwd habs]
  | false => rw [if_neg Bool.false_ne_true, UnixPath.inside_join_iff cwd habs]

/-- Both local writes, for every working directory, root, provider-supplied name (through
`CloudPath::new`) and file id. -/
theorem localWrites_inside_iff (cwd : List UnixPath.Text) (localRoot cacheRoot : UnixPath.Text) (s : Str)
    (fileId : FileId) :
    (Inside cwd localRoot (SyncEngine.localPath localRoot (CloudPath.new s)) ∧
        Inside cwd cacheRoot (ContentCache.cachedPath cacheRoot fileId)) ↔
      ComesBack (resolve cwd localRoot) (components (CloudPath.new s).asStr) ∧
        (if isAbsolute fileId.val then resolve cwd cacheRoot <+: names (components fileId.val)
          else ComesBack (resolve cwd cacheRoot) (components fileId.val)) := by
  rw [localPath_inside_iff, cachedPath_inside_iff]

/-- A name with `..` and an absolute id leave their roots. -/
theorem localWrites_escape :
    ¬ Inside [] "/home/u/sync".toList
        (SyncEngine.localPath "/home/u/sync".toList (CloudPath.new ('/' :: "../.bashrc".toList))) ∧
      ¬ Inside [] "/home/u/cache".toList (ContentCache.cachedPath "/home/u/cache".toList ⟨"/etc/passwd".toList⟩) := by
  decide

/-- Names and ids without `..` components, ids not absolute, stay inside. -/
theorem localWrites_inside {cwd : List UnixPath.Text} {localRoot cacheRoot : UnixPath.Text} {s : Str}
    {fileId : FileId} (hname : ∀ c ∈ components (CloudPath.new s).asStr, c ≠ ['.', '.'])
    (hid : isAbsolute fileId.val = false) (hparent : ∀ c ∈ components fileId.val, c ≠ ['.', '.']) :
    Inside cwd localRoot (SyncEngine.localPath localRoot (CloudPath.new s)) ∧
      Inside cwd cacheRoot (ContentCache.cachedPath cacheRoot fileId) := by
  rw [localPath_inside_iff, cachedPath_inside_iff, if_neg (by rw [hid]; decide)]
  exact ⟨UnixPath.comesBack_of_no_parent _ hname, UnixPath.comesBack_of_no_parent _ hparent⟩

end CloudSync
