/-
Creating a record. It answers in three ways: a record of an unknown file and a known account is stored, one that is
there already is a conflict, and so, in the same words, is one of an account that is not there.
-/
import CloudSync.Db.FileCodec

namespace CloudSync

/-- What creating a record answers, and the database after it. -/
inductive Created (file : File) (db : Database) : Except Abort Int × Database → Prop
  | stored (db' : Database) (unknown : db.rowOf file.accountId file.providerFileId = none)
      (account : file.accountId ∈ db.accounts)
      (sets : db.Sets file.toRow.key (some { file with id := db.files.seq + 1 }.toRow) db') :
      Created file db (.ok (db.files.seq + 1), db')
  | duplicate (r : FileRow) (known : db.rowOf file.accountId file.providerFileId = some r)
      (account : file.accountId ∈ db.accounts) : Created file db (.error duplicateError, db)
  | noAccount (unknown : db.rowOf file.accountId file.providerFileId = none)
      (account : file.accountId ∉ db.accounts) : Created file db (.error duplicateError, db)

theorem created (file : File) (now : DateTime) (db : Database) : Created file db (createFile file now db) := by
  cases hrow : db.rowOf file.accountId file.providerFileId with
  | some r =>
    obtain ⟨-, -, -, -, hacc⟩ := Database.rowOf_written hrow
    rw [createFile_refused now (Database.insertFile_duplicate hrow)]
    exact .duplicate r hrow hacc
  | none =>
    by_cases hacc : file.accountId ∈ db.accounts
    · obtain ⟨db', hcreate, hsets⟩ := createFile_spec file now hrow hacc
      rw [hcreate]
      exact .stored db' hrow hacc hsets
    · rw [createFile_refused now (Database.insertFile_noAccount hrow hacc)]
      exact .noAccount hrow hacc

/-! ## Conflicts -/

/-- There is a row of the account with the file id. -/
def Database.HasFile (db : Database) (account : AccountId) (id : FileId) : Prop :=
  ∃ r ∈ db.files.rows, r.accountId = account.val ∧ r.providerFileId = id.val

theorem Database.hasFile_iff {db : Database} {account : AccountId} {id : FileId} :
    db.HasFile account id ↔ ∃ r, db.rowOf account id = some r := by
  refine exists_congr fun r => ?_
  rw [rowOf, FilesTable.rowAt_eq_some]
  exact and_congr_right fun _ => Prod.mk_inj.symm

/-- The answer is a conflict exactly when the file is there, so any other refused record has another error, and every
failed creation leaves the database as it was. -/
structure ConflictMeansDuplicate (file : File) (now : DateTime) (db : Database) : Prop where
  conflict : (∃ message, (createFile file now db).1 = .error (.err (.conflict message))) ↔
    db.HasFile file.accountId file.providerFileId
  unchanged : ∀ e, (createFile file now db).1 = .error e → (createFile file now db).2 = db

theorem createFile_unchanged {file : File} {now : DateTime} {db : Database} {e : Abort}
    (h : (createFile file now db).1 = .error e) : (createFile file now db).2 = db := by
  cases hcreate : createFile file now db with
  | mk answer db' =>
    rw [hcreate] at h
    cases hcreate ▸ created file now db with
    | stored => cases h
    | duplicate => rfl
    | noAccount => rfl

/-- A conflict means a duplicate exactly when the account of the record is known. -/
theorem conflictMeansDuplicate_iff (file : File) (now : DateTime) (db : Database) :
    ConflictMeansDuplicate file now db ↔ file.accountId ∈ db.accounts := by
  cases hcreate : createFile file now db with
  | mk answer db' =>
    cases hcreate ▸ created file now db with
    | stored db' hrow hacc =>
      refine iff_of_true ⟨?_, fun e => createFile_unchanged⟩ hacc
      rw [Database.hasFile_iff, hrow, hcreate]
      exact iff_of_false (fun ⟨_, h⟩ => nomatch h) (fun ⟨_, h⟩ => nomatch h)
    | duplicate r hrow hacc =>
      refine iff_of_true ⟨?_, fun e => createFile_unchanged⟩ hacc
      rw [Database.hasFile_iff, hrow, hcreate]
      exact iff_of_true ⟨_, rfl⟩ ⟨r, rfl⟩
    | noAccount hrow hacc =>
      refine iff_of_false (fun h => ?_) hacc
      -- the refused foreign key is reported as the conflict of a file that is not there
      obtain ⟨r, hr⟩ := Database.hasFile_iff.1 (h.conflict.1 ⟨_, by rw [hcreate]; rfl⟩)
      rw [hrow] at hr
      cases hr

/-- Without accounts and without rows the first record is a conflict. -/
theorem conflict_without_rows :
    (createFile report DateTime.epoch (Database.empty [])).1 =
        .error (.err (.conflict "File with this account and provider_file_id already exists".toList)) ∧
      ¬ (Database.empty []).HasFile report.accountId report.providerFileId := by
  refine ⟨rfl, fun ⟨r, hr, _⟩ => ?_⟩
  cases hr

end CloudSync
