/-
The state of a row over calls of `ensure_downloaded`. A call that downloads first makes the row `Syncing`, and each
end of the download takes it further in a section of its own: to `Synced` with the sync time, or to `Error`. The end
for a cloud-native file has no such section, so its row stays `Syncing`.
-/
import CloudSync.Vfs.RowWrites

namespace CloudSync.ContentCache

open Prog (exec)
open RowWrite (onRow run_row)

/-! ## Rows after sections -/

variable {env : CacheEnv} {cacheRoot : UnixPath.Text} {account : AccountId} {id : FileId} {w : CacheWorld}

/-- A section of the cache, on the row if it is there. -/
theorem run_status (db : Database) (now : DateTime) (u : StatusWrite) :
    (RowWrite.run account id db (.inr (now, u))).2.rowOf account id =
      (db.rowOf account id).map fun r => onRow r (.inr (now, u)) := by
  cases hr : db.rowOf account id with
  | some r =>
    obtain ⟨db', hdb', hsets⟩ := run_row hr (.inr (now, u)) fun _ _ h => by cases h
    rw [hdb']
    show db'.files.rowAt (account.val, id.val) = _
    rw [hsets.rows, Function.update_self]
    rfl
  | none =>
    have hsame : (RowWrite.run account id db (.inr (now, u))).2 = db := by
      cases u <;>
      · show (editSection account id _ now db).2 = db
        unfold editSection
        rw [DbM.bind_ok (getFileByProviderId_none now hr)]
        rfl
    rw [hsame, hr]
    rfl

theorem sectionDb_state (hfault : ∀ n, env.dbFault n = none) (n : Nat) (state : FileState) (db : Database) :
    (sectionDb env n (fileStateSection account id state) db).rowOf account id =
      (db.rowOf account id).map fun r => onRow r (.inr (env.clock n, .state state)) := by
  unfold sectionDb
  rw [hfault n]
  exact run_status db (env.clock n) (.state state)

theorem sectionDb_syncedAt (hfault : ∀ n, env.dbFault n = none) (n : Nat) (db : Database) :
    (sectionDb env n (syncedAtSection account id) db).rowOf account id =
      (db.rowOf account id).map fun r => onRow r (.inr (env.clock n, .syncedAt)) := by
  unfold sectionDb
  rw [hfault n]
  exact run_status db (env.clock n) .syncedAt

/-- The sections of a download, the first one having the number `n`. -/
def downloadWrites (env : CacheEnv) (n : Nat) : Except CloudError Unit → List RowWrite
  | .ok () =>
    [.inr (env.clock n, .state .syncing), .inr (env.clock (n + 1), .state .synced),
      .inr (env.clock (n + 2), .syncedAt)]
  | .error (.cloudNativeFile _) => [.inr (env.clock n, .state .syncing)]
  | .error _ => [.inr (env.clock n, .state .syncing), .inr (env.clock (n + 1), .state .error)]

theorem downloadDb_row (hfault : ∀ n, env.dbFault n = none) (n : Nat) (db : Database)
    (result : Except CloudError Unit) :
    (downloadDb env account id n db result).rowOf account id =
      (db.rowOf account id).map fun r => (downloadWrites env n result).foldl onRow r := by
  unfold downloadDb
  rcases result with e | ⟨⟩
  · cases e with
    | cloudNativeFile url => exact sectionDb_state hfault n .syncing db
    | _ =>
      show (sectionDb env (n + 1) (fileStateSection account id .error) _).rowOf account id = _
      rw [sectionDb_state hfault, sectionDb_state hfault, Option.map_map]
      rfl
  · show (sectionDb env (n + 2) (syncedAtSection account id)
      (sectionDb env (n + 1) (fileStateSection account id .synced) _)).rowOf account id = _
    rw [sectionDb_syncedAt hfault, sectionDb_state hfault, sectionDb_state hfault, Option.map_map, Option.map_map]
    rfl

/-! ## One call -/

/-- A call downloads: nothing is at the path, and no download of the file was completed. -/
def Downloads (env : CacheEnv) (cacheRoot : UnixPath.Text) (id : FileId) (w : CacheWorld) : Prop :=
  w.files (cachePlace env cacheRoot id) = none ∧ w.locks id ≠ some .complete

/-- The download of a cloud-native file whose row is there and not `Syncing`. -/
def MarksNative (env : CacheEnv) (cacheRoot : UnixPath.Text) (account : AccountId) (id : FileId) (w : CacheWorld) :
    Prop :=
  Downloads env cacheRoot id w ∧ (∃ url, (env.download w.downloads id).1 = .error (.cloudNativeFile url)) ∧
    ∃ r, w.db.rowOf account id = some r ∧ r.state ≠ stateText .syncing

/-- The world after calls for these files. -/
def afterEach (env : CacheEnv) (cacheRoot : UnixPath.Text) (account : AccountId) (w : CacheWorld)
    (ids : List FileId) : CacheWorld :=
  ids.foldl (fun w id => (exec env.handler (ensureDownloaded cacheRoot account id) w).2) w

/-- A row that is `Syncing`. -/
def Syncing (db : Database) (account : AccountId) (id : FileId) : Prop :=
  ∃ r, db.rowOf account id = some r ∧ r.state = stateText .syncing

/-- What a call is to leave in the row: not `Syncing`, unless it was before; after a successful download `Synced` with
the sync time, and after an error `Error` or its state before. -/
structure Settles (env : CacheEnv) (cacheRoot : UnixPath.Text) (account : AccountId) (id : FileId) (w : CacheWorld)
    (result : Except CacheStop UnixPath.Text) (w' : CacheWorld) : Prop where
  settled : ¬ Syncing w.db account id → ¬ Syncing w'.db account id
  downloaded : (∃ path, result = .ok path) → w'.downloads ≠ w.downloads →
    ∀ r', w'.db.rowOf account id = some r' → r'.state = stateText .synced ∧ ∃ now, r'.syncedAt = some now
  failed : (∃ e, result = .error e) → ∀ r', w'.db.rowOf account id = some r' →
    r'.state = stateText .error ∨ ∃ r, w.db.rowOf account id = some r ∧ r'.state = r.state

/-- A call that does not download changes nothing. -/
theorem exec_ensureDownloaded_idle (account : AccountId) (h : ¬ Downloads env cacheRoot id w) :
    exec env.handler (ensureDownloaded cacheRoot account id) w = (.ok (cachedPath cacheRoot id), w) := by
  cases hfile : w.files (cachePlace env cacheRoot id) with
  | some node => exact exec_ensureDownloaded_present account hfile
  | none =>
    have hlock : w.locks id = some .complete := not_not.1 fun hne => h ⟨hfile, hne⟩
    have hexists : env.handler Bool (.pathExists (cachedPath cacheRoot id)) w = (false, w) := by
      show ((w.files (cachePlace env cacheRoot id)).isSome, w) = _
      rw [hfile]
      rfl
    have htake : env.handler _ (.takeEntry id) w = (.ok (), w) := by
      show (Except.ok (), { w with locks := Function.update w.locks id (some ((w.locks id).getD .inProgress)) }) = _
      rw [hlock, Function.update_eq_self_iff.2 hlock.symm]
    have hstatus : env.handler _ (.lockStatus id) w = (.ok .complete, w) := by
      show (Except.ok ((w.locks id).getD .inProgress), w) = _
      rw [hlock]
      rfl
    unfold ensureDownloaded
    rw [exec_act_bind, hexists]
    show exec env.handler (act (.takeEntry id) >>= _) w = _
    rw [exec_act_bind, htake]
    show exec env.handler (act (.lockStatus id) >>= _) w = _
    rw [exec_act_bind, hstatus]
    show exec env.handler (act (.pathExists (cachedPath cacheRoot id)) >>= _) w = _
    rw [exec_act_bind, hexists]
    rfl

theorem syncing_iff {db : Database} {r : FileRow} (h : db.rowOf account id = some r) :
    Syncing db account id ↔ r.state = stateText .syncing := by
  unfold Syncing
  rw [h]
  constructor
  · rintro ⟨r', hr', hstate⟩
    cases hr'
    exact hstate
  · exact fun hstate => ⟨r, rfl, hstate⟩

/-- After a download every end but that for a cloud-native file has settled the row. -/
theorem settles_download_iff (hfault : ∀ n, env.dbFault n = none) (hdownload : Downloads env cacheRoot id w)
    {w' : CacheWorld} {path : UnixPath.Text}
    (hdb : w'.db = downloadDb env account id w.sections w.db (env.download w.downloads id).1) :
    Settles env cacheRoot account id w (outcome path (env.download w.downloads id).1) w' ↔
      ¬ MarksNative env cacheRoot account id w := by
  have hrow : (downloadDb env account id w.sections w.db (env.download w.downloads id).1).rowOf account id = _ :=
    downloadDb_row hfault w.sections w.db (env.download w.downloads id).1
  rw [← hdb] at hrow
  unfold MarksNative
  cases hr : w.db.rowOf account id with
  | none =>
    -- there is no row, before or after
    rw [hr, Option.map_none] at hrow
    refine iff_of_true ⟨?_, fun _ _ r' hr' => ?_, fun _ r' hr' => ?_⟩ ?_
    · rintro - ⟨r', hr', -⟩
      rw [hrow] at hr'
      cases hr'
    · rw [hrow] at hr'
      cases hr'
    · rw [hrow] at hr'
      cases hr'
    · rintro ⟨-, -, r, hnone, -⟩
      cases hnone
  | some r =>
    rw [hr, Option.map_some] at hrow
    have hend : ∀ r', w'.db.rowOf account id = some r' → r' = (downloadWrites env w.sections
        (env.download w.downloads id).1).foldl onRow r := fun r' hr' => Option.some.inj (hr'.symm.trans hrow)
    generalize (env.download w.downloads id).1 = result at hrow hend ⊢
    rcases result with e | ⟨⟩
    · by_cases hnative : ∃ url, e = .cloudNativeFile url
      · obtain ⟨url, rfl⟩ := hnative
        constructor
        · rintro h ⟨-, -, r, hr', hstate⟩
          cases hr'
          exact h.settled (fun hbefore => hstate ((syncing_iff hr).1 hbefore)) ⟨_, hrow, rfl⟩
        · intro h
          have hbefore : r.state = stateText .syncing := not_not.1 fun hne => h ⟨hdownload, ⟨url, rfl⟩, r, rfl, hne⟩
          refine ⟨fun hfree => absurd ((syncing_iff hr).2 hbefore) hfree, ?_, fun _ r' hr' => .inr ⟨r, hr, ?_⟩⟩
          · rintro ⟨path, hpath⟩
            cases hpath
          · rw [hend r' hr', hbefore]
            rfl
      · have hwrites : downloadWrites env w.sections (.error e) =
            [.inr (env.clock w.sections, .state .syncing), .inr (env.clock (w.sections + 1), .state .error)] := by
          cases e <;> first | rfl | exact absurd ⟨_, rfl⟩ hnative
        rw [hwrites] at hend hrow
        refine iff_of_true ⟨fun _ hafter => ?_, ?_, fun _ r' hr' => .inl (by rw [hend r' hr']; rfl)⟩ ?_
        · have hstate : stateText .error = stateText .syncing := (syncing_iff hrow).1 hafter
          cases stateText_inj hstate
        · rintro ⟨path, hpath⟩
          cases e <;> cases hpath
        · rintro ⟨-, ⟨url, hurl⟩, -⟩
          exact hnative ⟨url, Except.error.inj hurl⟩
    · refine iff_of_true ⟨fun _ hafter => ?_, fun _ _ r' hr' => ?_, ?_⟩ ?_
      · have hstate : stateText .synced = stateText .syncing := (syncing_iff hrow).1 hafter
        cases stateText_inj hstate
      · rw [hend r' hr']
        exact ⟨rfl, _, rfl⟩
      · rintro ⟨e, he⟩
        cases he
      · rintro ⟨-, ⟨url, hurl⟩, -⟩
        cases hurl

theorem settles_iff (hfault : ∀ n, env.dbFault n = none) (account : AccountId) (id : FileId) (w : CacheWorld) :
    Settles env cacheRoot account id w (exec env.handler (ensureDownloaded cacheRoot account id) w).1
        (exec env.handler (ensureDownloaded cacheRoot account id) w).2 ↔
      ¬ MarksNative env cacheRoot account id w := by
  by_cases h : Downloads env cacheRoot id w
  · obtain ⟨sections', hrun⟩ := exec_ensureDownloaded_download account h.1 h.2
    rw [hrun]
    exact settles_download_iff hfault h rfl
  · rw [exec_ensureDownloaded_idle account h]
    refine iff_of_true ⟨fun hfree => hfree, fun _ hne => absurd rfl hne, ?_⟩ fun hmarks => h hmarks.1
    rintro ⟨e, he⟩
    cases he

/-- For any number of calls one after another, on any files, with a database that does not fail: every call settles
the row of its file exactly when none downloads a cloud-native file whose row is there and not `Syncing`. -/
theorem settled_iff (env : CacheEnv) (cacheRoot : UnixPath.Text) (account : AccountId) (w : CacheWorld)
    (hfault : ∀ n, env.dbFault n = none) (ids : List FileId) :
    (∀ before id, before ++ [id] <+: ids →
      Settles env cacheRoot account id (afterEach env cacheRoot account w before)
        (exec env.handler (ensureDownloaded cacheRoot account id) (afterEach env cacheRoot account w before)).1
        (exec env.handler (ensureDownloaded cacheRoot account id) (afterEach env cacheRoot account w before)).2) ↔
      ∀ before id, before ++ [id] <+: ids →
        ¬ MarksNative env cacheRoot account id (afterEach env cacheRoot account w before) :=
  forall₃_congr fun _ id _ => settles_iff hfault account id _

/-! ## Samples -/

/-- A cache whose database has one file. -/
def oneFile : CacheWorld := { emptyCache with db := RowWrite.oneRow }

theorem oneFile_cloudOnly : ¬ Syncing oneFile.db sampleAccount ⟨['f']⟩ := by
  rintro ⟨r, hr, hstate⟩
  have htext : stateText .cloudOnly = stateText .syncing := by
    cases hr
    exact hstate
  cases stateText_inj htext

theorem settled_sample :
    ∃ w', exec (calm fun _ _ => (.error (.network ['e']), none)).handler
        (ensureDownloaded ['/', 'c'] sampleAccount ⟨['f']⟩) oneFile = (.error (.errno .eio), w') ∧
      ¬ Syncing w'.db sampleAccount ⟨['f']⟩ := by
  refine ⟨_, rfl, ((settled_iff (calm fun _ _ => (.error (.network ['e']), none)) ['/', 'c'] sampleAccount oneFile
    (fun _ => rfl) [⟨['f']⟩]).2 (fun before id hpre => ?_) [] ⟨['f']⟩ (List.prefix_refl _)).settled oneFile_cloudOnly⟩
  rintro ⟨-, ⟨url, hurl⟩, -⟩
  cases hurl

/-- The row of a file that cannot be downloaded was cloud-only, and is `Syncing` after the call. -/
theorem native_left_syncing :
    ¬ Syncing oneFile.db sampleAccount ⟨['f']⟩ ∧
      ∃ w', exec (calm fun _ _ => (.error (.cloudNativeFile ['u']), none)).handler
          (ensureDownloaded ['/', 'c'] sampleAccount ⟨['f']⟩) oneFile = (.error (.errno .enotsup), w') ∧
        Syncing w'.db sampleAccount ⟨['f']⟩ :=
  ⟨oneFile_cloudOnly, _, rfl, _, rfl, rfl⟩

end CloudSync.ContentCache
