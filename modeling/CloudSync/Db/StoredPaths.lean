/-
The representation of cloud paths and the files table. A row keeps the text of a path and is decoded by
`CloudPath::new`, which changes backslashes. Paths that are built from components without backslashes have none, and
they are read back as they were stored.
-/
import CloudSync.Core.PathCompositions
import CloudSync.Db.Conflicts

namespace CloudSync

/-! ## Stored records -/

theorem createFile_stored {file : File} {now : DateTime} {db db' : Database} {id : Int}
    (h : createFile file now db = (.ok id, db')) :
    db'.rowOf file.accountId file.providerFileId = some { file with id := id }.toRow := by
  cases h ▸ created file now db with
  | stored db' hunknown hacc hsets =>
    exact Database.Sets.rowOf (f := { file with id := db.files.seq + 1 }) hsets

theorem FilesTable.update_stored {t t' : FilesTable} {f : File} {n : Nat} (h : t.update f = .ok (n + 1, t')) :
    ∃ createdAt, t'.rowAt f.toRow.key = some { f with createdAt := createdAt }.toRow := by
  unfold update at h
  split at h
  · cases h
  rename_i hid
  split at h
  · cases h
  split at h
  · cases h
  cases h
  -- the row with the id is the columns of a record, and keeps the instant that one was created at
  obtain ⟨r, hr, hrid⟩ := List.mem_map.1 (not_not.1 hid)
  obtain ⟨g, rfl⟩ := t.written r hr
  refine ⟨g.createdAt, rowAt_eq_some.2 ⟨List.mem_map.2 ⟨_, hr, ?_⟩, rfl⟩⟩
  unfold assign
  rw [if_pos hrid]
  rfl

theorem updateFile_stored {file : File} {now : DateTime} {db db' : Database}
    (h : updateFile file now db = (.ok true, db')) :
    ∃ createdAt, db'.rowOf file.accountId file.providerFileId =
      some { file with updatedAt := now, createdAt := createdAt }.toRow := by
  unfold updateFile at h
  simp only at h
  split at h
  · rename_i rowsAffected db'' hupdate
    obtain ⟨hrows, rfl⟩ := Prod.mk.inj h
    have hpos : rowsAffected > 0 := of_decide_eq_true (Except.ok.inj hrows)
    unfold Database.updateFile at hupdate
    split at hupdate
    · cases hupdate
    · cases hupdate
      exact absurd hpos (lt_irrefl 0)
    · rename_i n t ht
      split at hupdate
      · cases hupdate
        exact FilesTable.update_stored ht
      · cases hupdate
  · cases h

/-! ## The representation -/

namespace CloudPath

/-- A record with the path is read back with the path, once it is created and once it is updated. -/
structure ReadsBack (p : CloudPath) : Prop where
  created : ∀ (file : File) (now : DateTime) (db db' : Database) (id : Int), file.path = p →
    createFile file now db = (.ok id, db') → ∀ later, ∃ read,
      getFileByProviderId file.accountId file.providerFileId later db' = (.ok (some read), db') ∧ read.path = p
  updated : ∀ (file : File) (now : DateTime) (db db' : Database), file.path = p →
    updateFile file now db = (.ok true, db') → ∀ later, ∃ read,
      getFileByProviderId file.accountId file.providerFileId later db' = (.ok (some read), db') ∧ read.path = p

/-- The representation of a path: it begins with a slash and has no backslash, so that it is the path of its own text
and the one read back where it is stored. -/
structure Represented (p : CloudPath) : Prop where
  rooted : p.Rooted
  clean : '\\' ∉ p.text
  fixed : new p.asStr = p
  readsBack : p.ReadsBack

theorem readsBack_of_fixed {p : CloudPath} (h : new p.asStr = p) : p.ReadsBack where
  created file now db db' id hpath hcreate later := by
    refine ⟨_, getFileByProviderId_some later (createFile_stored hcreate), ?_⟩
    show new file.path.asStr = p
    rw [hpath, h]
  updated file now db db' hpath hupdate later := by
    obtain ⟨createdAt, hrow⟩ := updateFile_stored hupdate
    refine ⟨_, getFileByProviderId_some later hrow, ?_⟩
    show new file.path.asStr = p
    rw [hpath, h]

theorem Rooted.clean_iff {p : CloudPath} (h : p.Rooted) : p.Represented ↔ '\\' ∉ p.text := by
  refine ⟨Represented.clean, fun hclean => ?_⟩
  have hfixed := h.new_eq_iff.2 hclean
  exact ⟨h, hclean, hfixed, readsBack_of_fixed hfixed⟩

/-- A composition makes represented paths only, exactly when no component it joins has a backslash. -/
theorem represented_iff (e : Composition) {p : CloudPath} (hp : e.eval = some p) :
    (∀ q ∈ e.paths, q.Represented) ↔ ∀ component ∈ e.components, '\\' ∉ component :=
  (forall₂_congr fun _ hq => (e.rooted_paths hq).clean_iff).trans (e.backslash_paths_iff hp)

/-- The parent of a folder and a file joined to it. -/
theorem represented_sample :
    ∃ p, (Composition.join (.parent (.new "docs\\2024".toList)) "b.txt".toList).eval = some p ∧ p.Represented := by
  have heval : (Composition.join (.parent (.new "docs\\2024".toList)) "b.txt".toList).eval =
      some ⟨"/docs/b.txt".toList⟩ := by decide +kernel
  have hall := (represented_iff _ heval).2 (by decide +kernel)
  exact ⟨_, heval, hall _ (Composition.mem_paths _ heval)⟩

/-- A file with a backslash in its name is joined to a folder, and stored it is read back as the file in a folder. -/
theorem backslash_joined :
    (Composition.join (.new "/docs".toList) "a\\b".toList).eval = some ⟨"/docs/a\\b".toList⟩ ∧
      ¬ (CloudPath.mk "/docs/a\\b".toList).Represented ∧
      new (CloudPath.mk "/docs/a\\b".toList).asStr = ⟨"/docs/a/b".toList⟩ := by
  refine ⟨by decide +kernel, fun h => absurd h.clean (by decide), by decide +kernel⟩

end CloudPath

end CloudSync
