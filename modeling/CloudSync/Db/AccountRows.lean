/-
What belongs to an account. Deleting the account deletes its rows and nothing else, and it stays gone whatever calls
follow, until an account of its id is created; and calls for other accounts do not change its record, its rows or its
cursor.
-/
import CloudSync.Db.AccountBook

namespace CloudSync

/-! ## What belongs to one account -/

/-- Two stores hold the same for an account. -/
structure AccountStore.SameFor (account : AccountId) (s s' : AccountStore) : Prop where
  record : s'.accountAt account = s.accountAt account
  rows : s'.tables.rowsOf account = s.tables.rowsOf account
  cursor : s'.tables.cursorOf account = s.tables.cursorOf account

namespace AccountStore.SameFor

variable {account : AccountId} {s s' s'' : AccountStore}

theorem refl : SameFor account s s := ⟨rfl, rfl, rfl⟩

theorem trans (h : SameFor account s s') (h' : SameFor account s' s'') : SameFor account s s'' :=
  ⟨h'.record.trans h.record, h'.rows.trans h.rows, h'.cursor.trans h.cursor⟩

end AccountStore.SameFor

/-- The call is for other accounts: it does not name the account, nor one of the row ids. -/
def TableCall.Spares (account : AccountId) (ids : List Int) : TableCall → Prop
  | .createFile file => file.accountId ≠ account
  | .updateFile file => file.accountId ≠ account ∧ file.id ∉ ids
  | .deleteFile id => id ∉ ids
  | .deleteFilesByAccount accountId => accountId ≠ account
  | .upsertCursor accountId _ => accountId ≠ account
  | .deleteCursor accountId => accountId ≠ account
  | .getFileById _ | .getFileByProviderId _ _ | .getFileByCloudPath _ _ _ | .listFiles _ _ _ | .getCursor _ => True

def StoreCall.Spares (account : AccountId) (ids : List Int) : StoreCall → Prop
  | .createAccount other => other.id ≠ account
  | .updateAccount other => other.id ≠ account
  | .deleteAccount id => id ≠ account
  | .tables call => call.Spares account ids
  | .getAccountById _ | .listAccounts _ _ => True

namespace Database

variable {account : AccountId} {db db' : Database}

/-- The ids of the rows of an account. -/
def rowIdsOf (db : Database) (account : AccountId) : List Int := (db.rowsOf account).map FileRow.id

theorem val_ne {other : AccountId} (h : other ≠ account) : other.val ≠ account.val :=
  fun hval => h (congrArg AccountId.mk hval)

/-- The rows of an account after those of another were deleted. -/
theorem rowsOf_deleteByAccount {other : AccountId} (h : other ≠ account)
    (hrows : db'.files.rows = db.files.rows.filter (·.accountId ≠ other.val)) :
    db'.rowsOf account = db.rowsOf account := by
  unfold rowsOf
  rw [hrows, List.filter_filter]
  refine List.filter_congr fun r _ => ?_
  by_cases hr : r.accountId = account.val
  · simp [hr, (val_ne h).symm]
  · simp [hr]

/-- The cursor of an account after that of another was deleted. -/
theorem cursorOf_deleteCursor {other : AccountId} (h : other ≠ account)
    (hcursors : db'.cursors = db.cursors.filter (·.accountId ≠ other.val)) :
    db'.cursorOf account = db.cursorOf account := by
  unfold cursorOf
  rw [hcursors, List.find?_filter]
  have hpred : (fun r : CursorRow => decide (decide (r.accountId ≠ other.val) = true ∧
      decide (r.accountId = account.val) = true)) = fun r => decide (r.accountId = account.val) := by
    funext r
    by_cases hr : r.accountId = account.val
    · simp [hr, (val_ne h).symm]
    · simp [hr]
  rw [hpred]

/-- An account that is not there has no rows and no cursor. -/
theorem rowsOf_eq_nil (h : account ∉ db.accounts) : db.rowsOf account = [] := by
  refine List.filter_eq_nil_iff.2 fun r hr hacc => h ?_
  have hfk := db.filesFk r hr
  rwa [of_decide_eq_true hacc] at hfk

theorem cursorOf_eq_none (h : account ∉ db.accounts) : db.cursorOf account = none := by
  rw [← Option.not_isSome_iff_eq_none, Option.isSome_iff_exists]
  rintro ⟨cursor, hcursor⟩
  exact h (account_of_cursor hcursor)

end Database

/-! ## Calls for others -/

/-- A call on the tables that spares an account. -/
theorem TableCall.spares {account : AccountId} (call : TableCall) (now : DateTime) (db : Database)
    (h : call.Spares account (db.rowIdsOf account)) :
    (call.run now db).2.rowsOf account = db.rowsOf account ∧
      (call.run now db).2.cursorOf account = db.cursorOf account := by
  cases call with
  | createFile file =>
    show (CloudSync.createFile file now db).2.rowsOf account = _ ∧
      (CloudSync.createFile file now db).2.cursorOf account = _
    rcases createFile_cases file now db with ⟨-, hdb⟩ | ⟨-, -, hcursors, id, hrows⟩
    · rw [hdb]
      exact ⟨rfl, rfl⟩
    · unfold Database.rowsOf Database.cursorOf
      rw [hrows, hcursors, List.filter_append, List.filter_cons_of_neg, List.filter_nil, List.append_nil]
      · exact ⟨rfl, rfl⟩
      · exact fun hacc => Database.val_ne h (of_decide_eq_true hacc)
  | updateFile file =>
    show (CloudSync.updateFile file now db).2.rowsOf account = _ ∧
      (CloudSync.updateFile file now db).2.cursorOf account = _
    obtain ⟨hother, hid⟩ := h
    rcases updateFile_cases file now db with hdb | ⟨-, -, hcursors, hrows⟩
    · rw [hdb]
      exact ⟨rfl, rfl⟩
    · unfold Database.rowsOf Database.cursorOf
      rw [hrows, hcursors]
      refine ⟨?_, rfl⟩
      -- no row of the account is rewritten, and none becomes its
      have hassign : ∀ r ∈ db.files.rows, r.accountId = account.val →
          FilesTable.assign { file with updatedAt := now } r = r := by
        intro r hr hacc
        refine if_neg fun heq => hid ?_
        exact List.mem_map.2 ⟨r, List.mem_filter.2 ⟨hr, decide_eq_true hacc⟩, heq⟩
      rw [List.filter_map]
      have hsame : db.files.rows.filter ((fun r => decide (r.accountId = account.val)) ∘
          FilesTable.assign { file with updatedAt := now }) =
          db.files.rows.filter fun r => decide (r.accountId = account.val) := by
        refine List.filter_congr fun r hr => decide_eq_decide.2 ⟨fun hacc => ?_, fun hacc => ?_⟩
        · by_contra hne
          unfold FilesTable.assign at hacc
          split at hacc
          · exact Database.val_ne hother hacc
          · exact hne hacc
        · rw [hassign r hr hacc, hacc]
      rw [hsame]
      refine (List.map_congr_left fun r hr => ?_).trans (List.map_id _)
      obtain ⟨hmem, hacc⟩ := List.mem_filter.1 hr
      exact hassign r hmem (of_decide_eq_true hacc)
  | deleteFile id =>
    refine ⟨?_, rfl⟩
    show (db.files.rows.filter (·.id ≠ id)).filter _ = _
    rw [List.filter_filter, Database.rowsOf]
    refine List.filter_congr fun r hr => ?_
    by_cases hacc : r.accountId = account.val
    · have hne : r.id ≠ id := fun heq =>
        h (List.mem_map.2 ⟨r, List.mem_filter.2 ⟨hr, decide_eq_true hacc⟩, heq⟩)
      simp [hacc, hne]
    · simp [hacc]
  | deleteFilesByAccount accountId => exact ⟨Database.rowsOf_deleteByAccount h rfl, rfl⟩
  | upsertCursor accountId cursor =>
    obtain ⟨-, hfiles, hcursor⟩ := upsertCursor_cases accountId cursor now db
    refine ⟨?_, hcursor account (Ne.symm h)⟩
    show (CloudSync.upsertCursor accountId cursor now db).2.rowsOf account = _
    unfold Database.rowsOf
    rw [hfiles]
  | deleteCursor accountId => exact ⟨rfl, Database.cursorOf_deleteCursor h rfl⟩
  | getFileById id =>
    show (CloudSync.getFileById id now db).2.rowsOf account = _ ∧
      (CloudSync.getFileById id now db).2.cursorOf account = _
    unfold CloudSync.getFileById
    split <;> exact ⟨rfl, rfl⟩
  | getFileByProviderId accountId providerFileId =>
    show (CloudSync.getFileByProviderId accountId providerFileId now db).2.rowsOf account = _ ∧
      (CloudSync.getFileByProviderId accountId providerFileId now db).2.cursorOf account = _
    unfold CloudSync.getFileByProviderId
    split <;> exact ⟨rfl, rfl⟩
  | getFileByCloudPath scan accountId cloudPath =>
    show (CloudSync.getFileByCloudPath scan accountId cloudPath now db).2.rowsOf account = _ ∧
      (CloudSync.getFileByCloudPath scan accountId cloudPath now db).2.cursorOf account = _
    unfold CloudSync.getFileByCloudPath
    split <;> exact ⟨rfl, rfl⟩
  | listFiles scan accountId stateFilter => exact ⟨rfl, rfl⟩
  | getCursor accountId => exact ⟨rfl, rfl⟩

/-- An answered call leaves the record of an account it spares. -/
theorem AccountBook.Answers.spares {book book' : AccountBook} {step : StoreStep} {answer : Except Abort StoreReply}
    {account : AccountId} {ids : List Int} (h : Answers book step answer book')
    (hspares : step.call.Spares account ids) : book' account = book account := by
  cases h with
  | created now free => exact Function.update_of_ne (Ne.symm hspares) _ _
  | updated now known unrivalled => exact Function.update_of_ne (Ne.symm hspares) _ _
  | deleted id now => exact Function.update_of_ne (Ne.symm hspares) _ _
  | failed | conflict | got | listed | rivalled | unknown | tables => rfl

/-- The tables after a call on the accounts. -/
theorem StoreStep.tables_cases (step : StoreStep) (s : AccountStore) :
    (step.run s).2.tables = s.tables ∨
      (∃ account, step.call = .createAccount account ∧ (step.run s).2.tables = s.tables.addAccount account.id) ∨
      (∃ id, step.call = .deleteAccount id ∧ (step.run s).2.tables = s.tables.removeAccount id) ∨
      ∃ call, step.call = .tables call ∧ (step.run s).2.tables = (call.run step.now s.tables).2 := by
  obtain ⟨call, fault, now⟩ := step
  cases fault with
  | some message => cases call <;> exact .inl rfl
  | none =>
    cases call with
    | createAccount account =>
      show (createAccount account none now s).2.tables = _ ∨ _
      unfold StoreStep.run StoreCall.run StoreM.map createAccount StoreM.unlessFault
      simp only
      split
      · exact .inl rfl
      · exact .inr (.inl ⟨account, rfl, rfl⟩)
    | getAccountById id =>
      show (getAccountById id none now s).2.tables = _ ∨ _
      rw [getAccountById_eq]
      exact .inl rfl
    | listAccounts scan activeOnly => exact .inl rfl
    | updateAccount account =>
      show (updateAccount account none now s).2.tables = _ ∨ _
      unfold updateAccount StoreM.unlessFault
      simp only
      split
      · exact .inl rfl
      · exact .inl rfl
    | deleteAccount id => exact .inr (.inr (.inl ⟨id, rfl, rfl⟩))
    | tables call => exact .inr (.inr (.inr ⟨call, rfl, rfl⟩))

/-- A call that spares an account leaves what belongs to it. -/
theorem StoreStep.spares {account : AccountId} (step : StoreStep) (s : AccountStore)
    (h : step.call.Spares account (s.tables.rowIdsOf account)) : s.SameFor account (step.run s).2 := by
  have htables : (step.run s).2.tables.rowsOf account = s.tables.rowsOf account ∧
      (step.run s).2.tables.cursorOf account = s.tables.cursorOf account := by
    rcases step.tables_cases s with htables | ⟨other, -, htables⟩ | ⟨id, hcall, htables⟩ | ⟨call, hcall, htables⟩
    · rw [htables]
      exact ⟨rfl, rfl⟩
    · rw [htables]
      exact ⟨rfl, rfl⟩
    · rw [hcall] at h
      rw [htables]
      exact ⟨Database.rowsOf_deleteByAccount h rfl, Database.cursorOf_deleteCursor h rfl⟩
    · rw [hcall] at h
      rw [htables]
      exact call.spares step.now s.tables h
  exact ⟨(step.answers s).spares h, htables.1, htables.2⟩

/-- Calls for other accounts, in any number and order and with any faults: what belongs to the account is the same
after them. Row ids are the only other way to its rows, and the ids given out meanwhile are not those of its rows. -/
theorem AccountStore.run_spares (account : AccountId) (s : AccountStore) (steps : List StoreStep)
    (h : ∀ step ∈ steps, step.call.Spares account (s.tables.rowIdsOf account)) :
    s.SameFor account (s.run steps).2 := by
  refine CallRuns.run_invariant (fun step hstep s' hsame => hsame.trans (step.spares s' ?_)) .refl
  have hids : s'.tables.rowIdsOf account = s.tables.rowIdsOf account := congrArg (List.map FileRow.id) hsame.rows
  rw [hids]
  exact h step hstep

/-- A person's mail box, and another's. -/
def ann : Account :=
  .new DateTime.epoch ⟨['a']⟩ .googleDrive "ann@mail".toList ['t'] none none

def bob : Account :=
  .new DateTime.epoch ⟨['b']⟩ .dropbox "bob@mail".toList ['t'] none none

/-- Both accounts, and a file of the first. -/
def annAndBob : AccountStore :=
  (AccountStore.empty.run [⟨.createAccount ann, none, DateTime.epoch⟩, ⟨.createAccount bob, none, DateTime.epoch⟩,
    ⟨.tables (.createFile report), none, DateTime.epoch⟩]).2

theorem AccountStore.run_spares_sample :
    annAndBob.SameFor ann.id (annAndBob.run [⟨.tables (.upsertCursor bob.id ['c']), none, DateTime.epoch⟩,
      ⟨.deleteAccount bob.id, none, DateTime.epoch⟩, ⟨.tables (.deleteFile 7), none, DateTime.epoch⟩]).2 := by
  refine AccountStore.run_spares ann.id annAndBob _ (List.forall_mem_cons.2 ⟨?_, List.forall_mem_cons.2 ⟨?_,
    List.forall_mem_cons.2 ⟨?_, List.forall_mem_nil _⟩⟩⟩)
  · show bob.id ≠ ann.id
    decide
  · show bob.id ≠ ann.id
    decide
  · show (7 : Int) ∉ annAndBob.tables.rowIdsOf ann.id
    decide +kernel

/-! ## Deleted accounts -/

/-- The call names the account, and does not create it. -/
def TableCall.Needs (id : AccountId) : TableCall → Prop
  | .createFile file | .updateFile file => file.accountId = id
  | .getFileByProviderId accountId _ | .getFileByCloudPath _ accountId _ | .listFiles _ accountId _
  | .deleteFilesByAccount accountId | .upsertCursor accountId _ | .getCursor accountId | .deleteCursor accountId =>
    accountId = id
  | .getFileById _ | .deleteFile _ => False

def StoreCall.Needs (id : AccountId) : StoreCall → Prop
  | .updateAccount account => account.id = id
  | .getAccountById id' | .deleteAccount id' => id' = id
  | .tables call => call.Needs id
  | .createAccount _ | .listAccounts _ _ => False

/-- The answer finds nothing and changes nothing. -/
def TableReply.Nothing : TableReply → Prop
  | .file none | .files [] | .changed false | .count 0 | .cursor none => True
  | _ => False

def StoreReply.Nothing : StoreReply → Prop
  | .account none | .changed false => True
  | .tables reply => reply.Nothing
  | _ => False

/-- The call fails with an error, or finds nothing. -/
def Denied {β : Type} (nothing : β → Prop) : Except Abort β → Prop
  | .ok reply => nothing reply
  | .error (.err _) => True
  | .error .panic => False

/-- No file of an account that is not there is created. -/
theorem createFile_denied {file : File} (now : DateTime) {db : Database} (h : file.accountId ∉ db.accounts) :
    (createFile file now db).1 = .error duplicateError := by
  cases hcreate : createFile file now db with
  | mk answer db' =>
    cases hcreate ▸ created file now db with
    | stored db' unknown account sets => exact absurd account h
    | duplicate r known account => rfl
    | noAccount unknown account => rfl

theorem updateFile_denied {file : File} (now : DateTime) {db : Database} (h : file.accountId ∉ db.accounts) :
    (updateFile file now db).1 = .ok false ∨ ∃ e, (updateFile file now db).1 = .error (.err e) := by
  unfold updateFile
  simp only
  split
  · rename_i rowsAffected db' hupdate
    unfold Database.updateFile at hupdate
    split at hupdate
    · cases hupdate
    · cases hupdate
      exact .inl rfl
    · rename_i n t ht
      split at hupdate
      · rename_i hacc
        exact absurd hacc h
      · cases hupdate
  · exact .inr ⟨_, rfl⟩

/-- Without rows of an account a query for one of its rows finds none. -/
theorem Database.find_rowsOf {db : Database} {account : AccountId} (h : db.rowsOf account = []) {rows : List FileRow}
    (hrows : ∀ r ∈ rows, r ∈ db.files.rows) {p : FileRow → Bool} (hp : ∀ r, p r = true → r.accountId = account.val) :
    rows.find? p = none := by
  rw [List.find?_eq_none]
  intro r hr hpr
  exact List.filter_eq_nil_iff.1 h r (hrows r hr) (decide_eq_true (hp r hpr))

/-- What an account that is not there is answered. -/
theorem TableCall.denied {id : AccountId} (call : TableCall) (now : DateTime) {db : Database} (h : id ∉ db.accounts)
    (hneeds : call.Needs id) : Denied TableReply.Nothing (call.run now db).1 := by
  have hrows := Database.rowsOf_eq_nil h
  cases call with
  | createFile file =>
    show Denied TableReply.Nothing ((CloudSync.createFile file now db).1.map .rowId)
    rw [createFile_denied now (hneeds ▸ h)]
    trivial
  | updateFile file =>
    show Denied TableReply.Nothing ((CloudSync.updateFile file now db).1.map .changed)
    have hfile : file.accountId ∉ db.accounts := hneeds ▸ h
    rcases updateFile_denied now hfile with hanswer | ⟨e, hanswer⟩
    · rw [hanswer]
      trivial
    · rw [hanswer]
      trivial
  | getFileByProviderId accountId providerFileId =>
    cases hneeds
    have hnone : db.rowOf id providerFileId = none :=
      Database.find_rowsOf hrows (fun r hr => hr) fun r hr => congrArg Prod.fst (of_decide_eq_true hr)
    show Denied TableReply.Nothing ((CloudSync.getFileByProviderId id providerFileId now db).1.map .file)
    rw [getFileByProviderId_none now hnone]
    trivial
  | getFileByCloudPath scan accountId cloudPath =>
    cases hneeds
    show Denied TableReply.Nothing ((CloudSync.getFileByCloudPath scan id cloudPath now db).1.map .file)
    unfold CloudSync.getFileByCloudPath
    rw [Database.find_rowsOf hrows (fun r hr => Scan.mem_order.1 hr) fun r hr => (of_decide_eq_true hr).1]
    trivial
  | listFiles scan accountId stateFilter =>
    cases hneeds
    have hnil : scan.accountRows id stateFilter db.files = [] := by
      refine List.eq_nil_iff_forall_not_mem.2 fun r hr => ?_
      unfold Scan.accountRows at hr
      obtain ⟨hmem, hacc⟩ := List.mem_filter.1 ((List.mem_insertionSort _).1 hr)
      exact List.filter_eq_nil_iff.1 hrows r (Scan.mem_order.1 hmem) (decide_eq_true (of_decide_eq_true hacc).1)
    show Denied TableReply.Nothing (((scan.accountRows id stateFilter db.files).mapM File.fromRow).map .files)
    rw [hnil]
    trivial
  | deleteFilesByAccount accountId =>
    cases hneeds
    have hzero : db.files.rows.countP (·.accountId = id.val) = 0 :=
      List.countP_eq_zero.2 (List.filter_eq_nil_iff.1 hrows)
    show Denied TableReply.Nothing (Except.ok (TableReply.count (db.files.rows.countP (·.accountId = id.val))))
    rw [hzero]
    trivial
  | upsertCursor accountId cursor =>
    cases hneeds
    have hnone := Database.cursorOf_eq_none h
    have hany : ¬ (db.cursors.any (·.accountId = id.val)) = true := by
      rw [List.any_eq_true]
      rintro ⟨r, hr, hacc⟩
      exact List.find?_eq_none.1 (Option.map_eq_none_iff.1 hnone) r hr hacc
    show Denied TableReply.Nothing ((CloudSync.upsertCursor id cursor now db).1.map _)
    unfold CloudSync.upsertCursor
    simp only
    rw [if_neg hany, dif_neg h]
    trivial
  | getCursor accountId =>
    cases hneeds
    show Denied TableReply.Nothing (Except.ok (TableReply.cursor (db.cursorOf id)))
    rw [Database.cursorOf_eq_none h]
    trivial
  | deleteCursor accountId =>
    cases hneeds
    have hzero : db.cursors.countP (·.accountId = id.val) = 0 := by
      refine List.countP_eq_zero.2 fun r hr hacc => ?_
      exact List.find?_eq_none.1 (Option.map_eq_none_iff.1 (Database.cursorOf_eq_none h)) r hr hacc
    show Denied TableReply.Nothing (Except.ok (TableReply.changed
      (decide (db.cursors.countP (·.accountId = id.val) > 0))))
    rw [hzero]
    trivial
  | getFileById rowId => exact hneeds.elim
  | deleteFile rowId => exact hneeds.elim

/-- What a book without the record answers about it. -/
theorem AccountBook.Answers.denied {id : AccountId} {book book' : AccountBook} {step : StoreStep}
    {answer : Except Abort StoreReply} (h : Answers book step answer book') (hgone : book id = none)
    (hneeds : step.call.Needs id) (htables : ∀ call, step.call ≠ .tables call) : Denied StoreReply.Nothing answer := by
  cases h with
  | failed | rivalled => trivial
  | created now free => exact hneeds.elim
  | conflict now taken => exact hneeds.elim
  | listed scan now lists => exact hneeds.elim
  | got id' now =>
    cases hneeds
    show Denied StoreReply.Nothing (.ok (.account (book id)))
    rw [hgone]
    trivial
  | updated now known unrivalled =>
    cases hneeds
    rw [hgone] at known
    cases known
  | unknown now unknown => trivial
  | deleted id' now =>
    cases hneeds
    show Denied StoreReply.Nothing (.ok (.changed (book id).isSome))
    rw [hgone]
    trivial
  | tables call now => exact absurd rfl (htables call)

/-- What a list of such a book leaves out. -/
theorem AccountBook.Answers.unlisted {id : AccountId} {book book' : AccountBook} {step : StoreStep}
    {accounts : List Account} (h : Answers book step (.ok (.accounts accounts)) book') (hgone : book id = none)
    (htables : ∀ call, step.call ≠ .tables call) : id ∉ accounts.map Account.id := by
  cases h with
  | listed scan now lists =>
    intro hmem
    obtain ⟨a, ha, rfl⟩ := List.mem_map.1 hmem
    have hsome := ((lists.mem a).1 ha).1
    rw [hgone] at hsome
    cases hsome
  | tables call now => exact absurd rfl (htables call)

theorem AccountStore.notMem_accounts {id : AccountId} {s : AccountStore} (h : s.accountAt id = none) :
    id ∉ s.tables.accounts := by
  rw [s.agree, AccountsTable.mem_ids, Bool.not_eq_true, Option.isSome_eq_false_iff, Option.isNone_iff_eq_none]
  exact h

/-- The answer of a store without the account: a call that names it is denied, and a list does not have it. -/
structure StoreStep.AnsweredWithout (id : AccountId) (step : StoreStep) (answer : Except Abort StoreReply) : Prop where
  denied : step.call.Needs id → Denied StoreReply.Nothing answer
  unlisted : ∀ accounts, answer = .ok (.accounts accounts) → id ∉ accounts.map Account.id

theorem StoreStep.answeredWithout {id : AccountId} (step : StoreStep) {s : AccountStore} (h : s.accountAt id = none) :
    step.AnsweredWithout id (step.run s).1 := by
  by_cases htables : ∀ call, step.call ≠ .tables call
  · exact ⟨fun hneeds => (step.answers s).denied h hneeds htables, fun accounts haccounts =>
      (haccounts ▸ step.answers s).unlisted h htables⟩
  · simp only [not_forall, not_not] at htables
    obtain ⟨call, hcall⟩ := htables
    obtain ⟨_, fault, now⟩ := step
    cases hcall
    cases fault with
    | some message => exact ⟨fun _ => trivial, fun accounts haccounts => nomatch haccounts⟩
    | none =>
      have hanswer : (StoreStep.run ⟨.tables call, none, now⟩ s).1 = (call.run now s.tables).1.map .tables := rfl
      rw [hanswer]
      refine ⟨fun hneeds => ?_, fun accounts haccounts => ?_⟩
      · have hdenied := call.denied now (AccountStore.notMem_accounts h) hneeds
        cases hreply : (call.run now s.tables).1 with
        | error e =>
          rw [hreply] at hdenied
          cases e with
          | err e => trivial
          | panic => exact hdenied
        | ok reply =>
          rw [hreply] at hdenied
          exact hdenied
      · cases hreply : (call.run now s.tables).1 with
        | error e =>
          rw [hreply] at haccounts
          cases haccounts
        | ok reply =>
          rw [hreply] at haccounts
          cases haccounts

/-- A call that creates no account of the id does not bring it back. -/
theorem AccountBook.Answers.gone {id : AccountId} {book book' : AccountBook} {step : StoreStep}
    {answer : Except Abort StoreReply} (h : Answers book step answer book') (hgone : book id = none)
    (hcreate : ∀ account, step.call = .createAccount account → account.id ≠ id) : book' id = none := by
  cases h with
  | created now free => exact (Function.update_of_ne (Ne.symm (hcreate _ rfl)) _ _).trans hgone
  | @updated account old now known unrivalled =>
    by_cases hid : id = account.id
    · rw [← hid, hgone] at known
      cases known
    · exact (Function.update_of_ne hid _ _).trans hgone
  | deleted id' now =>
    by_cases hid : id = id'
    · rw [hid]
      exact Function.update_self _ _ _
    · exact (Function.update_of_ne hid _ _).trans hgone
  | failed | conflict | got | listed | rivalled | unknown | tables => exact hgone

/-- Deleting an account leaves what belongs to the others, and as long as no account of its id is created it stays
gone: it has no record, no rows and no cursor, calls that name it fail or find nothing, and no list has it. -/
theorem AccountStore.delete_final (id : AccountId) (now : DateTime) (s s' : AccountStore)
    (hs' : s' = (deleteAccount id none now s).2) (steps : List StoreStep)
    (h : ∀ step ∈ steps, ∀ account, step.call = .createAccount account → account.id ≠ id) :
    (∀ other, other ≠ id → s.SameFor other s') ∧
      ((s'.run steps).2.accountAt id = none ∧ (s'.run steps).2.tables.rowsOf id = [] ∧
        (s'.run steps).2.tables.cursorOf id = none) ∧
      ∀ entry ∈ (s'.run steps).1, entry.1.AnsweredWithout id entry.2 := by
  subst hs'
  have hgone : (deleteAccount id none now s).2.accountAt id = none := by
    show (s.accounts.delete id).2.accountAt id = none
    rw [(s.accounts.delete_spec id).2.1, Function.update_self]
  obtain ⟨hfinal, hentries⟩ := CallRuns.run_ensures (fun (step : StoreStep) hstep s' hs' =>
    ⟨(step.answers s').gone hs' (h step hstep), step.answeredWithout hs'⟩) hgone
  exact ⟨fun other hother => (StoreStep.mk (.deleteAccount id) none now).spares s (Ne.symm hother),
    ⟨hfinal, Database.rowsOf_eq_nil (notMem_accounts hfinal), Database.cursorOf_eq_none (notMem_accounts hfinal)⟩,
    hentries⟩

theorem AccountStore.delete_final_sample :
    (((deleteAccount ann.id none DateTime.epoch annAndBob).2.run
      [⟨.tables (.createFile report), none, DateTime.epoch⟩]).2).tables.rowsOf ann.id = [] :=
  (AccountStore.delete_final ann.id DateTime.epoch annAndBob _ rfl
    [⟨.tables (.createFile report), none, DateTime.epoch⟩]
    (fun step hstep account hcall => by
      rw [List.mem_singleton.1 hstep] at hcall
      cases hcall)).2.1.2.1

end CloudSync
