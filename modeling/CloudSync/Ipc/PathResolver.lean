/-
`PathResolver`: local paths under the sync root to a provider and a cloud path, and back. The cloud path
that comes back is the one that went in without its empty and `.` segments.
-/
import CloudSync.Core.CloudPaths
import CloudSync.Lib.UnixPath

namespace CloudSync

open UnixPath (Text components join stripPrefix collect Single)

/-! ## Providers -/

/-- A cloud provider type. -/
inductive ProviderId
  | googleDrive
  | dropbox
  | oneDrive
deriving DecidableEq

namespace ProviderId

def asStr : ProviderId → Str
  | .googleDrive => "gdrive".toList
  | .dropbox => "dropbox".toList
  | .oneDrive => "onedrive".toList

def fromSlug (slug : Str) : Option ProviderId :=
  if slug = "gdrive".toList then some .googleDrive
  else if slug = "dropbox".toList then some .dropbox
  else if slug = "onedrive".toList then some .oneDrive
  else none

theorem fromSlug_asStr (p : ProviderId) : fromSlug p.asStr = some p := by cases p <;> decide

/-- The text of a provider is one component of a path. -/
theorem single_asStr (p : ProviderId) : Single p.asStr := by cases p <;> decide

end ProviderId

/-! ## The resolver -/

structure ResolvedPath where
  providerSlug : Str
  cloudPath : CloudPath
deriving DecidableEq

structure PathResolver where
  syncRoot : Text

namespace PathResolver

/-- The path after the provider, as a cloud path. -/
def cloudPathOf (components : List Text) : CloudPath :=
  let remainder := collect components
  if remainder = [] then CloudPath.root else CloudPath.new ('/' :: remainder)

def resolveLocal (localPath : Text) (r : PathResolver) : Option ResolvedPath :=
  match stripPrefix r.syncRoot localPath with
  | none | some [] => none
  | some (providerSlug :: components) => some ⟨providerSlug, cloudPathOf components⟩

def toLocal (providerSlug : Str) (cloudPath : CloudPath) (r : PathResolver) : Text :=
  let path := join r.syncRoot providerSlug
  let cloudStr := cloudPath.asStr.dropWhile (· = '/')
  if cloudStr = [] then path else join path cloudStr

/-- A cloud path without its empty and `.` segments. -/
def normal (p : CloudPath) : CloudPath := cloudPathOf (components p.asStr)

theorem parts_root_slug (r : PathResolver) {slug : Str} (hslug : Single slug) :
    join r.syncRoot slug ≠ [] ∧ UnixPath.parts (join r.syncRoot slug) = UnixPath.parts r.syncRoot ++ [slug] := by
  by_cases hroot : r.syncRoot = []
  · have hjoin : join [] slug = slug := by
      unfold join
      rw [hslug.isAbsolute, if_neg Bool.false_ne_true, if_neg (fun hne => hne.1 rfl), List.nil_append]
    rw [hroot, hjoin]
    exact ⟨hslug.1, hslug.parts⟩
  · refine ⟨?_, by rw [UnixPath.parts_join hroot hslug.isAbsolute, hslug.components]⟩
    unfold join
    rw [hslug.isAbsolute, if_neg Bool.false_ne_true]
    split
    · exact List.append_ne_nil_of_left_ne_nil hroot _
    · exact List.append_ne_nil_of_left_ne_nil hroot _

/-- The parts of the local path that a provider and a cloud path lead to. -/
theorem parts_toLocal {r : PathResolver} {slug : Str}
    (hslug : join r.syncRoot slug ≠ [] ∧ UnixPath.parts (join r.syncRoot slug) = UnixPath.parts r.syncRoot ++ [slug])
    (p : CloudPath) : UnixPath.parts (r.toLocal slug p) = UnixPath.parts r.syncRoot ++ slug :: components p.asStr := by
  obtain ⟨hne, hparts⟩ := hslug
  unfold toLocal
  rw [← UnixPath.components_dropWhile p.asStr]
  simp only
  split
  · rename_i hnil
    rw [hparts, hnil]
    rfl
  · rw [UnixPath.parts_join hne (UnixPath.isAbsolute_dropWhile _), hparts, List.append_assoc, List.singleton_append]

/-- A path resolves to the part after the sync root and the cloud path of the names after that. -/
theorem resolveLocal_parts {r : PathResolver} {localPath slug : Text} {names : List Text}
    (h : UnixPath.parts localPath = UnixPath.parts r.syncRoot ++ slug :: names) :
    r.resolveLocal localPath = some ⟨slug, cloudPathOf names⟩ := by
  unfold resolveLocal stripPrefix
  rw [h, if_pos (List.prefix_append _ _), List.drop_left]

/-- A cloud path that is made local resolves to its provider and its normal form. -/
theorem resolveLocal_toLocal (r : PathResolver) {slug : Str} (hslug : Single slug) (p : CloudPath) :
    r.resolveLocal (r.toLocal slug p) = some ⟨slug, normal p⟩ :=
  resolveLocal_parts (parts_toLocal (parts_root_slug r hslug) p)

/-- A resolved cloud path is one that `CloudPath::new` makes. -/
theorem new_resolved {r : PathResolver} {localPath : Text} {resolved : ResolvedPath}
    (h : r.resolveLocal localPath = some resolved) :
    CloudPath.new resolved.cloudPath.asStr = resolved.cloudPath := by
  unfold resolveLocal at h
  split at h
  · cases h
  · cases h
  · cases h
    simp only
    unfold cloudPathOf
    simp only
    split
    · decide
    · exact CloudPath.new_new _

/-! ## The normal form -/

/-- Names without backslashes have none between them. -/
theorem backslash_notMem_intercalate {names : List Text} (h : ∀ name ∈ names, '\\' ∉ name) :
    '\\' ∉ ['/'].intercalate names := by
  intro hmem
  obtain ⟨name, hname, hbackslash⟩ := UnixPath.exists_mem_of_mem_intercalate (by decide) hmem
  exact h name hname hbackslash

/-- Without backslashes the normal form is the components with one slash before each. -/
theorem normal_eq {p : CloudPath} (hclean : '\\' ∉ p.asStr) :
    normal p = ⟨'/' :: ['/'].intercalate (components p.asStr)⟩ := by
  unfold normal cloudPathOf
  simp only
  rw [UnixPath.collect_eq fun c => UnixPath.single_of_mem_components]
  split
  · rename_i hnil
    rw [hnil]
    rfl
  · have hkept : '\\' ∉ ['/'].intercalate (components p.asStr) :=
      backslash_notMem_intercalate fun c hc hbackslash => hclean (UnixPath.mem_of_mem_components hc hbackslash)
    rw [CloudPath.new_slash, CloudPath.map_slashed_eq hkept]

/-- A path of names between single slashes has these names as components. -/
theorem components_slashed {cs : List Text} (hcs : ∀ c ∈ cs, Single c) :
    components ('/' :: ['/'].intercalate cs) = cs :=
  (UnixPath.components_slash [] _).trans (UnixPath.components_intercalate hcs)

/-- A cloud path made by `new` that is made local resolves to its provider and to itself without the empty and `.`
components and the slash at the end; to itself when it has none of these. -/
theorem cloud_round_trip (r : PathResolver) {slug : Str} (hslug : Single slug) (s : Str) :
    r.resolveLocal (r.toLocal slug (CloudPath.new s)) =
        some ⟨slug, ⟨'/' :: ['/'].intercalate (components (CloudPath.new s).asStr)⟩⟩ ∧
      ∀ names, (∀ name ∈ names, Single name) → (CloudPath.new s).asStr = '/' :: ['/'].intercalate names →
        r.resolveLocal (r.toLocal slug (CloudPath.new s)) = some ⟨slug, CloudPath.new s⟩ := by
  have hnormal := normal_eq (p := CloudPath.new s) (CloudPath.backslash_notMem_slashed _)
  have htrip := r.resolveLocal_toLocal hslug (CloudPath.new s)
  rw [hnormal] at htrip
  refine ⟨htrip, fun names hnames htext => ?_⟩
  have hself : CloudPath.mk ('/' :: ['/'].intercalate (components (CloudPath.new s).asStr)) = CloudPath.new s := by
    rw [htext, components_slashed hnames, ← htext]
    rfl
  rw [htrip, hself]

/-- A path with `.`, repeated slashes and one at the end, under the sync root of the documentation. -/
theorem cloud_round_trip_sample :
    (PathResolver.mk "/home/user/UniCloudST".toList).resolveLocal
        (toLocal "gdrive".toList (CloudPath.new "docs//./a/../b/".toList) ⟨"/home/user/UniCloudST".toList⟩) =
      some ⟨"gdrive".toList, ⟨"/docs/a/../b".toList⟩⟩ := by
  have hslug : Single "gdrive".toList := ProviderId.single_asStr .googleDrive
  have htrip := (cloud_round_trip ⟨"/home/user/UniCloudST".toList⟩ hslug "docs//./a/../b/".toList).1
  have hcomponents :
      CloudPath.mk ('/' :: ['/'].intercalate (components (CloudPath.new "docs//./a/../b/".toList).asStr)) =
        ⟨"/docs/a/../b".toList⟩ := by decide +kernel
  rwa [hcomponents] at htrip

end PathResolver

end CloudSync
