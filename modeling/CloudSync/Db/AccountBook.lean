/-
What the calls on accounts are for. The accounts are a book of records by id: a run of calls, with any clocks and any
failing statements, is answered as the book answers it, whatever the calls on files and cursors between them do.
-/
import CloudSync.Db.AccountStore
import Mathlib.Data.Set.List

namespace CloudSync

/-! ## The book -/

/-- The records by id. -/
abbrev AccountBook := AccountId → Option Account

namespace AccountBook

/-- No record has the id of the account, and none is its rival. -/
def Free (book : AccountBook) (account : Account) : Prop :=
  ∀ id b, book id = some b → id ≠ account.id ∧ ¬ b.Rivals account

/-- No record of another id is a rival of the account. -/
def Unrivalled (book : AccountBook) (account : Account) : Prop :=
  ∀ id b, id ≠ account.id → book id = some b → ¬ b.Rivals account

/-- A list of all records, or of the active ones, the newest first. -/
structure Lists (book : AccountBook) (activeOnly : Bool) (accounts : List Account) : Prop where
  ids : (accounts.map Account.id).Nodup
  mem : ∀ a, a ∈ accounts ↔ book a.id = some a ∧ (activeOnly = true → a.isActive = true)
  newestFirst : accounts.Pairwise fun a b => b.createdAt.timestamp ≤ a.createdAt.timestamp

/-- How a book answers a call, and the book after it. -/
inductive Answers : AccountBook → StoreStep → Except Abort StoreReply → AccountBook → Prop
  | failed (book : AccountBook) (call : StoreCall) (message : Str) (now : DateTime) :
      Answers book ⟨call, some message, now⟩ (.error (.err (CloudSync.failed message))) book
  | created {book : AccountBook} {account : Account} (now : DateTime) (free : book.Free account) :
      Answers book ⟨.createAccount account, none, now⟩ (.ok (.accountId account.id))
        (Function.update book account.id (some account.stored))
  | conflict {book : AccountBook} {account : Account} (now : DateTime) (taken : ¬ book.Free account) :
      Answers book ⟨.createAccount account, none, now⟩ (.error accountConflict) book
  | got (book : AccountBook) (id : AccountId) (now : DateTime) :
      Answers book ⟨.getAccountById id, none, now⟩ (.ok (.account (book id))) book
  | listed {book : AccountBook} {activeOnly : Bool} {accounts : List Account} (scan : AccountScan) (now : DateTime)
      (lists : book.Lists activeOnly accounts) :
      Answers book ⟨.listAccounts scan activeOnly, none, now⟩ (.ok (.accounts accounts)) book
  | updated {book : AccountBook} {account old : Account} (now : DateTime) (known : book account.id = some old)
      (unrivalled : book.Unrivalled account) :
      Answers book ⟨.updateAccount account, none, now⟩ (.ok (.changed true))
        (Function.update book account.id (some { account with createdAt := old.createdAt, updatedAt := now }.stored))
  | rivalled {book : AccountBook} {account : Account} (now : DateTime) (known : (book account.id).isSome)
      (rivalled : ¬ book.Unrivalled account) :
      Answers book ⟨.updateAccount account, none, now⟩ (.error (.err (.sqlite (refused .unique)))) book
  | unknown {book : AccountBook} {account : Account} (now : DateTime) (unknown : book account.id = none) :
      Answers book ⟨.updateAccount account, none, now⟩ (.ok (.changed false)) book
  | deleted (book : AccountBook) (id : AccountId) (now : DateTime) :
      Answers book ⟨.deleteAccount id, none, now⟩ (.ok (.changed (book id).isSome)) (Function.update book id none)
  | tables (book : AccountBook) (call : TableCall) (now : DateTime) (answer : Except Abort StoreReply) :
      Answers book ⟨.tables call, none, now⟩ answer book

end AccountBook

/-! ## Lists of accounts -/

theorem AccountScan.mem_rows {scan : AccountScan} {activeOnly : Bool} {t : AccountsTable} {r : AccountRow} :
    r ∈ scan.rows activeOnly t ↔ r ∈ t.table.rows ∧ (activeOnly = true → r.isActive = 1) := by
  unfold rows
  rw [List.mem_insertionSort, List.mem_filter, (scan.perm _).mem_iff]
  refine and_congr_right fun _ => ?_
  cases activeOnly <;> simp

/-- The selected rows are those of some records. -/
theorem AccountScan.rows_written (scan : AccountScan) (activeOnly : Bool) (t : AccountsTable) :
    ∃ accounts : List Account, scan.rows activeOnly t = accounts.map Account.toRow := by
  have hmem : scan.rows activeOnly t ∈ Set.range (List.map Account.toRow) := by
    rw [Set.range_list_map]
    intro r hr
    obtain ⟨a, rfl⟩ := t.written r (mem_rows.1 hr).1
    exact ⟨a, rfl⟩
  obtain ⟨accounts, haccounts⟩ := hmem
  exact ⟨accounts, haccounts.symm⟩

theorem Account.mapM_fromRow (accounts : List Account) :
    (accounts.map toRow).mapM fromRow = .ok (accounts.map stored) := by
  induction accounts with
  | nil => rfl
  | cons a accounts ih =>
    rw [List.map_cons, List.mapM_cons, fromRow_toRow, ih]
    rfl

theorem Account.isActive_toRow (a : Account) : a.toRow.isActive = 1 ↔ a.isActive = true := by
  show (if a.isActive then (1 : Int) else 0) = 1 ↔ _
  cases a.isActive <;> simp

/-- The list is one of the book. -/
theorem listAccounts_lists (scan : AccountScan) (activeOnly : Bool) (t : AccountsTable) :
    ∃ accounts, (scan.rows activeOnly t).mapM Account.fromRow = .ok accounts ∧
      AccountBook.Lists t.accountAt activeOnly accounts := by
  obtain ⟨accounts, haccounts⟩ := scan.rows_written activeOnly t
  refine ⟨accounts.map Account.stored, by rw [haccounts, Account.mapM_fromRow], ?_, fun a => ?_, ?_⟩
  · -- one row for every id
    have hids : (accounts.map fun a => a.toRow.id).Nodup := by
      have hrows : ((scan.rows activeOnly t).map AccountRow.id).Nodup := by
        refine ((List.perm_insertionSort _ _).map AccountRow.id).nodup_iff.2 ?_
        refine List.Nodup.sublist (List.filter_sublist.map _) ?_
        exact ((scan.perm t.table.rows).map AccountRow.id).nodup_iff.2 t.table.keysNodup
      rwa [haccounts, List.map_map] at hrows
    rw [List.map_map]
    have hval : (accounts.map (Account.id ∘ Account.stored)).map AccountId.val = accounts.map fun a => a.toRow.id := by
      rw [List.map_map]
      rfl
    exact List.Nodup.of_map AccountId.val (hval ▸ hids)
  · rw [List.mem_map]
    have hmem : ∀ {g : Account}, g ∈ accounts → g.toRow ∈ t.table.rows ∧ (activeOnly = true → g.isActive = true) := by
      intro g hg
      obtain ⟨hrow, hactive⟩ := AccountScan.mem_rows.1 (haccounts ▸ List.mem_map_of_mem hg)
      exact ⟨hrow, fun h => g.isActive_toRow.1 (hactive h)⟩
    constructor
    · rintro ⟨g, hg, rfl⟩
      obtain ⟨hrow, hactive⟩ := hmem hg
      exact ⟨AccountsTable.accountAt_eq_some.2 ⟨g, KeyedRows.Table.rowAt_eq_some.2 ⟨hrow, rfl⟩, rfl, rfl⟩, hactive⟩
    · rintro ⟨ha, hactive⟩
      obtain ⟨g, hrow, -, rfl⟩ := AccountsTable.accountAt_eq_some.1 ha
      have hsel : g.toRow ∈ scan.rows activeOnly t :=
        AccountScan.mem_rows.2 ⟨(KeyedRows.Table.rowAt_eq_some.1 hrow).1, fun h => g.isActive_toRow.2 (hactive h)⟩
      rw [haccounts] at hsel
      obtain ⟨g', hg', hsame⟩ := List.mem_map.1 hsel
      have hread := Account.fromRow_toRow g'
      rw [hsame, Account.fromRow_toRow] at hread
      exact ⟨g', hg', (Except.ok.inj hread).symm⟩
  · have htotal : Std.Total fun a b : AccountRow => b.createdAt ≤ a.createdAt := ⟨fun a b => le_total _ _⟩
    have htrans : IsTrans AccountRow fun a b => b.createdAt ≤ a.createdAt := ⟨fun a b c hab hbc => hbc.trans hab⟩
    have hsorted : (scan.rows activeOnly t).Pairwise fun a b => b.createdAt ≤ a.createdAt :=
      List.pairwise_insertionSort _ _
    rw [haccounts, List.pairwise_map] at hsorted
    exact List.pairwise_map.2 hsorted

/-! ## The store answers as the book -/

theorem createAccount_answers (account : Account) (now : DateTime) (s : AccountStore) :
    AccountBook.Answers s.accountAt ⟨.createAccount account, none, now⟩
      ((createAccount account none now s).1.map .accountId) (createAccount account none now s).2.accountAt := by
  unfold createAccount StoreM.unlessFault
  simp only
  rcases s.accounts.insert_spec account with ⟨hrefused, id, b, hb, htaken⟩ | ⟨t, hok, hfree, haccounts, -⟩
  · split
    · refine .conflict now fun hfree => ?_
      obtain ⟨hid, hrival⟩ := hfree id b hb
      exact htaken.elim hid hrival
    · rename_i accounts h
      rw [hrefused] at h
      cases h
  · split
    · rename_i c h
      rw [hok] at h
      cases h
    · rename_i accounts h
      rw [hok] at h
      cases h
      show AccountBook.Answers s.accountAt _ _ t.accountAt
      rw [haccounts]
      exact .created now hfree

/-- The account of an id, read back from its row. -/
theorem getAccountById_eq (id : AccountId) (now : DateTime) (s : AccountStore) :
    getAccountById id none now s = (.ok (s.accountAt id), s) := by
  unfold getAccountById StoreM.unlessFault
  simp only
  cases hrow : s.accounts.table.rowAt id.val with
  | none =>
    have hnone : s.accountAt id = none := by
      show s.accounts.accountAt id = none
      unfold AccountsTable.accountAt
      rw [hrow]
      rfl
    rw [hnone]
  | some r =>
    obtain ⟨a, rfl, -⟩ := AccountsTable.rowAt_written hrow
    have hsome : s.accountAt id = some a.stored := AccountsTable.accountAt_of_row hrow
    rw [hsome]
    simp only [Account.fromRow_toRow]
    rfl

theorem updateAccount_answers (account : Account) (now : DateTime) (s : AccountStore) :
    AccountBook.Answers s.accountAt ⟨.updateAccount account, none, now⟩
      ((updateAccount account none now s).1.map .changed) (updateAccount account none now s).2.accountAt := by
  unfold updateAccount StoreM.unlessFault
  simp only
  rcases s.accounts.update_spec { account with updatedAt := now } with ⟨hok, hnone⟩ |
    ⟨hrefused, hsome, id, b, hne, hb, hrival⟩ | ⟨t, old, hok, hold, hfree, haccounts, -⟩
  · split
    · rename_i c h
      rw [hok] at h
      cases h
    · rename_i changed accounts h
      rw [hok] at h
      cases h
      exact .unknown now hnone
  · split
    · rename_i c h
      rw [hrefused] at h
      cases h
      exact .rivalled now hsome fun hfree => hfree id b hne hb hrival
    · rename_i changed accounts h
      rw [hrefused] at h
      cases h
  · split
    · rename_i c h
      rw [hok] at h
      cases h
    · rename_i changed accounts h
      rw [hok] at h
      cases h
      show AccountBook.Answers s.accountAt _ _ t.accountAt
      rw [haccounts]
      exact .updated now hold hfree

theorem StoreStep.answers (step : StoreStep) (s : AccountStore) :
    AccountBook.Answers s.accountAt step (step.run s).1 (step.run s).2.accountAt := by
  obtain ⟨call, fault, now⟩ := step
  cases fault with
  | some message => cases call <;> exact .failed s.accountAt _ message now
  | none =>
    cases call with
    | createAccount account => exact createAccount_answers account now s
    | getAccountById id =>
      show AccountBook.Answers s.accountAt _ ((getAccountById id none now s).1.map .account)
        (getAccountById id none now s).2.accountAt
      rw [getAccountById_eq]
      exact .got s.accountAt id now
    | listAccounts scan activeOnly =>
      obtain ⟨accounts, haccounts, hlists⟩ := listAccounts_lists scan activeOnly s.accounts
      show AccountBook.Answers s.accountAt _ (((scan.rows activeOnly s.accounts).mapM Account.fromRow).map .accounts)
        s.accountAt
      rw [haccounts]
      exact .listed scan now hlists
    | updateAccount account => exact updateAccount_answers account now s
    | deleteAccount id =>
      obtain ⟨hdeleted, haccounts, -⟩ := s.accounts.delete_spec id
      show AccountBook.Answers s.accountAt _ (Except.ok (StoreReply.changed (s.accounts.delete id).1))
        (s.accounts.delete id).2.accountAt
      rw [hdeleted, haccounts]
      exact .deleted s.accountAt id now
    | tables call => exact .tables s.accountAt call now _

/-- Every run of calls is answered as the book of the accounts answers it, and leaves the book that answers it leaves;
there each record has the id it is found by, and no two are of one person at one provider. -/
theorem AccountStore.run_book (steps : List StoreStep) (s : AccountStore) :
    CallRuns.Allowed AccountBook.Answers s.accountAt (s.run steps).1 (s.run steps).2.accountAt ∧
      ∀ id a, (s.run steps).2.accountAt id = some a → a.id = id ∧
        ∀ id' b, (s.run steps).2.accountAt id' = some b → a.Rivals b → id = id' := by
  refine ⟨CallRuns.run_refines StoreStep.answers steps s, fun id a ha => ⟨?_, fun id' b hb hrival => ?_⟩⟩
  · obtain ⟨g, -, hid, rfl⟩ := AccountsTable.accountAt_eq_some.1 ha
    exact hid
  · exact AccountsTable.eq_of_rivals ha hb hrival

end CloudSync
