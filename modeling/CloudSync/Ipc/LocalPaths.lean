/-
The round trip of local paths. A local path below the sync root resolves to a provider and a cloud path, and
these lead back to the local path unless a name after the provider has a backslash: a cloud path has none.
-/
import CloudSync.Ipc.PathResolver

namespace CloudSync.PathResolver

open UnixPath (Text components join stripPrefix collect Single parts)

/-- The components of a local path after the sync root and the provider. -/
def afterProvider (r : PathResolver) (localPath : Text) : List Text :=
  (parts localPath).drop ((parts r.syncRoot).length + 1)

/-- No name after the provider has a backslash. -/
def Unslashed (r : PathResolver) (localPath : Text) : Prop := ∀ name ∈ r.afterProvider localPath, '\\' ∉ name

/-- The path is below the sync root, by one component or more. -/
def Below (r : PathResolver) (localPath : Text) : Prop :=
  parts r.syncRoot <+: parts localPath ∧ (parts r.syncRoot).length < (parts localPath).length

instance (r : PathResolver) (localPath : Text) : Decidable (r.Below localPath) :=
  inferInstanceAs (Decidable (_ ∧ _))

theorem below_iff {r : PathResolver} {localPath : Text} :
    r.Below localPath ↔ ∃ slug, parts localPath = parts r.syncRoot ++ slug :: r.afterProvider localPath := by
  unfold Below afterProvider
  constructor
  · rintro ⟨⟨rest, hrest⟩, hlt⟩
    rw [← hrest, List.length_append] at hlt
    cases rest with
    | nil => simp at hlt
    | cons slug names =>
      refine ⟨slug, ?_⟩
      rw [← hrest, ← List.drop_drop, List.drop_left]
      rfl
  · rintro ⟨slug, heq⟩
    rw [heq]
    exact ⟨List.prefix_append _ _, by simp⟩

/-! ## The parts of the local path -/

section

variable {r : PathResolver} {localPath slug : Text} {names : List Text}

theorem single_of_below (h : parts localPath = parts r.syncRoot ++ slug :: names) : ∀ name ∈ names, Single name := by
  intro name hname
  refine UnixPath.single_of_mem_tail_parts (p := localPath) ?_
  rw [h]
  cases parts r.syncRoot with
  | nil => exact hname
  | cons c cs => exact List.mem_append_right _ (List.mem_cons_of_mem _ hname)

/-- The first part of a path is a path of its own, its leading `/` or `.` included. -/
theorem parts_head {p part : Text} {rest : List Text} (h : parts p = part :: rest) :
    part ≠ [] ∧ parts part = [part] := by
  have hsingle : Single part → part ≠ [] ∧ parts part = [part] := fun hs => ⟨hs.1, hs.parts⟩
  unfold parts at h
  split at h
  · cases h
    exact ⟨by decide, by decide⟩
  · split at h
    · cases h
      exact ⟨by decide, by decide⟩
    · refine hsingle (UnixPath.single_of_mem_components (p := p) ?_)
      rw [List.nil_append] at h
      rw [h]
      exact List.mem_cons_self

/-- The provider is joined to the sync root as one part. -/
theorem parts_join_slug (h : parts localPath = parts r.syncRoot ++ slug :: names) :
    join r.syncRoot slug ≠ [] ∧ parts (join r.syncRoot slug) = parts r.syncRoot ++ [slug] := by
  by_cases hroot : r.syncRoot = []
  -- without a sync root the provider is the first part, which may be `/` or `.`
  · have hjoin : join [] slug = slug := by
      unfold join
      split
      · rfl
      · rw [if_neg (fun hne => hne.1 rfl), List.nil_append]
    rw [hroot] at h ⊢
    rw [hjoin]
    exact parts_head h
  · refine parts_root_slug r (UnixPath.single_of_mem_tail_parts (p := localPath) ?_)
    obtain ⟨c, cs, hparts⟩ := List.exists_cons_of_ne_nil (mt UnixPath.parts_eq_nil.1 hroot)
    rw [h, hparts]
    exact List.mem_append_right _ List.mem_cons_self

/-! ## Cloud paths -/

/-- The names of a cloud path are those it is made of, with slashes for their backslashes. -/
theorem components_cloudPathOf (hnames : ∀ name ∈ names, Single name) :
    components (cloudPathOf names).asStr = components ((['/'].intercalate names).map CloudPath.slashed) := by
  unfold cloudPathOf
  rw [UnixPath.collect_eq hnames]
  simp only
  split
  · rename_i hnil
    rw [hnil]
    rfl
  · rw [CloudPath.new_slash]
    exact UnixPath.components_slash [] _

/-- A cloud path keeps the names it is made of exactly when none has a backslash. -/
theorem components_cloudPathOf_iff (hnames : ∀ name ∈ names, Single name) :
    components (cloudPathOf names).asStr = names ↔ ∀ name ∈ names, '\\' ∉ name := by
  rw [components_cloudPathOf hnames]
  constructor
  · intro h name hname hbackslash
    rw [← h] at hname
    exact CloudPath.backslash_notMem_slashed _ (UnixPath.mem_of_mem_components hname hbackslash)
  · intro h
    rw [CloudPath.map_slashed_eq (backslash_notMem_intercalate h)]
    exact UnixPath.components_intercalate hnames

end

/-! ## The round trip -/

/-- Every local path below the sync root resolves, and it comes back from its provider and cloud path exactly when
no name after the provider has a backslash. So two such paths with the same provider and cloud path are one. -/
theorem local_round_trip_iff (r : PathResolver) (localPath : Text) (hbelow : r.Below localPath) :
    (∃ resolved, r.resolveLocal localPath = some resolved ∧
      (parts (r.toLocal resolved.providerSlug resolved.cloudPath) = parts localPath ↔ r.Unslashed localPath)) ∧
    ∀ other, r.Below other → r.Unslashed localPath → r.Unslashed other →
      r.resolveLocal localPath = r.resolveLocal other → parts localPath = parts other := by
  have htrip : ∀ {path : Text}, r.Below path → ∃ resolved, r.resolveLocal path = some resolved ∧
      (parts (r.toLocal resolved.providerSlug resolved.cloudPath) = parts path ↔ r.Unslashed path) := by
    intro path hpath
    obtain ⟨slug, hparts⟩ := below_iff.1 hpath
    refine ⟨_, resolveLocal_parts hparts, ?_⟩
    have hkeeps := components_cloudPathOf_iff (single_of_below hparts)
    simp only [parts_toLocal (parts_join_slug hparts)]
    rw [hparts, List.append_cancel_left_eq, List.cons.injEq, and_iff_right rfl]
    exact hkeeps
  refine ⟨htrip hbelow, fun other hother hclean hcleanOther hsame => ?_⟩
  obtain ⟨resolved, hresolved, hback⟩ := htrip hbelow
  obtain ⟨resolved', hresolved', hback'⟩ := htrip hother
  have heq : resolved = resolved' := by
    rw [hresolved, hresolved'] at hsame
    exact Option.some.inj hsame
  subst heq
  calc parts localPath = parts (r.toLocal resolved.providerSlug resolved.cloudPath) := (hback.2 hclean).symm
    _ = parts other := hback'.2 hcleanOther

/-- The path of the documentation comes back. -/
theorem local_round_trip_sample :
    ∃ resolved, resolveLocal "/home/user/UniCloudST/gdrive/docs/report.pdf".toList ⟨"/home/user/UniCloudST".toList⟩ =
        some resolved ∧
      parts (toLocal resolved.providerSlug resolved.cloudPath ⟨"/home/user/UniCloudST".toList⟩) =
        parts "/home/user/UniCloudST/gdrive/docs/report.pdf".toList := by
  obtain ⟨⟨resolved, hresolved, hback⟩, -⟩ := local_round_trip_iff ⟨"/home/user/UniCloudST".toList⟩
    "/home/user/UniCloudST/gdrive/docs/report.pdf".toList (by decide +kernel)
  refine ⟨resolved, hresolved, hback.2 ?_⟩
  unfold Unslashed
  decide +kernel

/-- A file with a backslash in its name resolves like the file in the directory, and does not come back. -/
theorem backslash_lost :
    ∃ resolved, resolveLocal "/sync/gdrive/a\\b".toList ⟨"/sync".toList⟩ = some resolved ∧
      resolveLocal "/sync/gdrive/a/b".toList ⟨"/sync".toList⟩ = some resolved ∧
      parts (toLocal resolved.providerSlug resolved.cloudPath ⟨"/sync".toList⟩) ≠ parts "/sync/gdrive/a\\b".toList := by
  refine ⟨⟨"gdrive".toList, CloudPath.new "/a/b".toList⟩, ?_⟩
  decide +kernel

end CloudSync.PathResolver
