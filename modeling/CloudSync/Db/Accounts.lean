/-
The `accounts` table, and the whole database: the accounts beside the tables whose rows belong to them. Deleting an
account deletes its file rows and its cursor; every other statement leaves the set of accounts or the rows of the
other tables as they are.
-/
import CloudSync.Lib.KeyedRows
import CloudSync.Db.FileCodec
import CloudSync.Db.VfsInodes
import CloudSync.Ipc.PathResolver

namespace CloudSync

/-! ## Records and rows -/

/-- A cloud provider account stored in the database. -/
structure Account where
  id : AccountId
  provider : ProviderId
  email : Str
  accessToken : Str
  refreshToken : Option Str
  tokenExpiresAt : Option DateTime
  isActive : Bool
  createdAt : DateTime
  updatedAt : DateTime
deriving DecidableEq

/-- A row of the `accounts` table. -/
structure AccountRow where
  id : Str
  provider : Str
  email : Str
  accessToken : Str
  refreshToken : Option Str
  tokenExpiresAt : Option Int
  isActive : Int
  createdAt : Int
  updatedAt : Int
deriving DecidableEq

/-- The columns of `UNIQUE(provider, email)`. -/
def AccountRow.owner (r : AccountRow) : Str × Str := (r.provider, r.email)

/-- The provider texts of `create_account` and `update_account`; they are not those of `ProviderId::as_str`. -/
def providerText : ProviderId → Str
  | .googleDrive => "googledrive".toList
  | .dropbox => "dropbox".toList
  | .oneDrive => "onedrive".toList

/-- The provider texts `Account::from_row` reads. -/
def providerOfText (s : Str) : Option ProviderId :=
  if s = "googledrive".toList then some .googleDrive
  else if s = "dropbox".toList then some .dropbox
  else if s = "onedrive".toList then some .oneDrive
  else none

/-- The provider texts of the CHECK constraint. -/
def checkedProviders : List Str := ["googledrive".toList, "dropbox".toList, "onedrive".toList]

@[simp] theorem providerOfText_providerText (p : ProviderId) : providerOfText (providerText p) = some p := by
  cases p <;> decide

theorem providerText_inj {p q : ProviderId} (h : providerText p = providerText q) : p = q := by
  have htext := congrArg providerOfText h
  rwa [providerOfText_providerText, providerOfText_providerText, Option.some.injEq] at htext

theorem providerText_checked (p : ProviderId) : providerText p ∈ checkedProviders := by
  cases p <;> decide

namespace Account

/-- `Account::new`, with the identifier it generates. -/
def new (now : DateTime) (id : AccountId) (provider : ProviderId) (email accessToken : Str) (refreshToken : Option Str)
    (tokenExpiresAt : Option DateTime) : Account where
  id := id
  provider := provider
  email := email
  accessToken := accessToken
  refreshToken := refreshToken
  tokenExpiresAt := tokenExpiresAt
  isActive := true
  createdAt := now
  updatedAt := now

/-- The columns `create_account` binds. -/
def toRow (a : Account) : AccountRow where
  id := a.id.val
  provider := providerText a.provider
  email := a.email
  accessToken := a.accessToken
  refreshToken := a.refreshToken
  tokenExpiresAt := a.tokenExpiresAt.map DateTime.timestamp
  isActive := if a.isActive then 1 else 0
  createdAt := a.createdAt.timestamp
  updatedAt := a.updatedAt.timestamp

/-- An optional timestamp, which panics when it is out of chrono's range. -/
def unwrapTimestamp : Option Int → Except Abort (Option DateTime)
  | none => .ok none
  | some ts => (unwrap (DateTime.fromTimestamp ts)).map some

def fromRow (row : AccountRow) : Except Abort Account := do
  let provider ← match providerOfText row.provider with
    | some provider => pure provider
    | none => throw (.err (.sqlite .invalidQuery))
  let tokenExpiresAt ← unwrapTimestamp row.tokenExpiresAt
  let createdAt ← unwrap (DateTime.fromTimestamp row.createdAt)
  let updatedAt ← unwrap (DateTime.fromTimestamp row.updatedAt)
  pure {
    id := ⟨row.id⟩
    provider := provider
    email := row.email
    accessToken := row.accessToken
    refreshToken := row.refreshToken
    tokenExpiresAt := tokenExpiresAt
    isActive := row.isActive != 0
    createdAt := createdAt
    updatedAt := updatedAt }

/-- The record a stored account reads back as. -/
def stored (a : Account) : Account :=
  { a with
    tokenExpiresAt := a.tokenExpiresAt.map DateTime.floor
    createdAt := a.createdAt.floor
    updatedAt := a.updatedAt.floor }

theorem expiry_column (t : Option DateTime) :
    unwrapTimestamp (t.map DateTime.timestamp) = .ok (t.map DateTime.floor) := by
  cases t with
  | none => rfl
  | some t =>
    show (unwrap (DateTime.fromTimestamp t.timestamp)).map some = _
    rw [DateTime.fromTimestamp_timestamp]
    rfl

theorem fromRow_toRow (a : Account) : fromRow a.toRow = .ok a.stored := by
  simp only [fromRow, toRow, providerOfText_providerText, expiry_column, DateTime.fromTimestamp_timestamp, unwrap,
    File.folder_column]
  rfl

/-- Two accounts are rivals when they are of one person at one provider. -/
def Rivals (a b : Account) : Prop := a.provider = b.provider ∧ a.email = b.email

theorem owner_eq {a b : Account} : a.toRow.owner = b.toRow.owner ↔ Rivals a b := by
  show (providerText a.provider, a.email) = (providerText b.provider, b.email) ↔ _
  rw [Prod.mk.injEq]
  exact and_congr_left fun _ => ⟨providerText_inj, congrArg providerText⟩

end Account

/-! ## The table -/

/-- The rows of the `accounts` table: their ids and their owners are unique, and each is the columns of a record. -/
structure AccountsTable where
  table : KeyedRows.Table AccountRow.id AccountRow.owner
  written : ∀ r ∈ table.rows, ∃ a : Account, r = a.toRow

namespace AccountsTable

def empty : AccountsTable := ⟨.empty, List.forall_mem_nil _⟩

/-- The effect of `UPDATE accounts SET …` on the row it selects: every column but `id` and `created_at`. -/
def assign (a : Account) (r : AccountRow) : AccountRow := { a.toRow with id := r.id, createdAt := r.createdAt }

theorem id_assign (a : Account) (r : AccountRow) : (assign a r).id = r.id := rfl

theorem written_insert {t : AccountsTable} {a : Account} {table : KeyedRows.Table AccountRow.id AccountRow.owner}
    (h : t.table.insert a.toRow = some table) : ∀ r ∈ table.rows, ∃ a : Account, r = a.toRow := by
  rw [(KeyedRows.Table.rows_insert h).1]
  intro r hr
  rcases List.mem_append.1 hr with hr | hr
  · exact t.written r hr
  · exact ⟨a, List.mem_singleton.1 hr⟩

theorem written_revise {t : AccountsTable} {a : Account} {table : KeyedRows.Table AccountRow.id AccountRow.owner}
    (h : t.table.revise a.id.val (assign a) (id_assign a) = some table) :
    ∀ r ∈ table.rows, ∃ a : Account, r = a.toRow := by
  rw [KeyedRows.Table.rows_revise h]
  intro r hr
  obtain ⟨r₀, hr₀, rfl⟩ := List.mem_map.1 hr
  obtain ⟨b, rfl⟩ := t.written r₀ hr₀
  unfold KeyedRows.Table.reviseRow
  split
  · exact ⟨{ a with id := b.id, createdAt := b.createdAt }, rfl⟩
  · exact ⟨b, rfl⟩

/-- `INSERT INTO accounts` -/
def insert (t : AccountsTable) (a : Account) : Except Constraint AccountsTable :=
  if providerText a.provider ∉ checkedProviders then .error .check
  else match h : t.table.insert a.toRow with
    | none => .error .unique
    | some table => .ok ⟨table, written_insert h⟩

/-- `UPDATE accounts SET … WHERE id = a.id`: whether a row was changed, and the table. -/
def update (t : AccountsTable) (a : Account) : Except Constraint (Bool × AccountsTable) :=
  if t.table.rows.countP (·.id = a.id.val) = 0 then .ok (false, t)
  else if providerText a.provider ∉ checkedProviders then .error .check
  else match h : t.table.revise a.id.val (assign a) (id_assign a) with
    | none => .error .unique
    | some table => .ok (true, ⟨table, written_revise h⟩)

/-- `DELETE FROM accounts WHERE id = id`: whether a row was deleted, and the table. -/
def delete (t : AccountsTable) (id : AccountId) : Bool × AccountsTable :=
  (decide (t.table.rows.countP (·.id = id.val) > 0),
    ⟨t.table.delete id.val, fun r hr => t.written r (List.mem_filter.1 hr).1⟩)

/-- The ids, which are the targets of the foreign keys. -/
def ids (t : AccountsTable) : List AccountId := t.table.rows.map fun r => ⟨r.id⟩

/-- The account of an id. -/
def accountAt (t : AccountsTable) (id : AccountId) : Option Account :=
  (t.table.rowAt id.val).bind fun r => (Account.fromRow r).toOption

/-! ### Lookup -/

/-- Every row is that of a record with its id. -/
theorem rowAt_written {t : AccountsTable} {id : AccountId} {r : AccountRow} (h : t.table.rowAt id.val = some r) :
    ∃ a : Account, r = a.toRow ∧ a.id = id := by
  obtain ⟨hmem, hid⟩ := KeyedRows.Table.rowAt_eq_some.1 h
  obtain ⟨a, rfl⟩ := t.written r hmem
  exact ⟨a, rfl, congrArg AccountId.mk hid⟩

theorem accountAt_of_row {t : AccountsTable} {id : AccountId} {a : Account} (h : t.table.rowAt id.val = some a.toRow) :
    t.accountAt id = some a.stored := by
  unfold accountAt
  rw [h, Option.bind_some, Account.fromRow_toRow]
  rfl

theorem accountAt_eq_some {t : AccountsTable} {id : AccountId} {b : Account} :
    t.accountAt id = some b ↔ ∃ a : Account, t.table.rowAt id.val = some a.toRow ∧ a.id = id ∧ a.stored = b := by
  constructor
  · intro h
    obtain ⟨r, hr, -⟩ := Option.bind_eq_some_iff.1 h
    obtain ⟨a, rfl, hid⟩ := rowAt_written hr
    rw [accountAt_of_row hr] at h
    exact ⟨a, hr, hid, Option.some.inj h⟩
  · rintro ⟨a, hr, -, rfl⟩
    exact accountAt_of_row hr

theorem accountAt_isSome {t : AccountsTable} {id : AccountId} :
    (t.accountAt id).isSome = (t.table.rowAt id.val).isSome := by
  cases hr : t.table.rowAt id.val with
  | none =>
    unfold accountAt
    rw [hr]
    rfl
  | some r =>
    obtain ⟨a, rfl, -⟩ := rowAt_written hr
    rw [accountAt_of_row hr]
    rfl

theorem mem_ids {t : AccountsTable} {id : AccountId} : id ∈ t.ids ↔ (t.accountAt id).isSome := by
  rw [accountAt_isSome, Option.isSome_iff_exists]
  unfold ids
  rw [List.mem_map]
  constructor
  · rintro ⟨r, hr, rfl⟩
    exact ⟨r, KeyedRows.Table.mem_iff_rowAt.1 hr⟩
  · rintro ⟨r, hr⟩
    obtain ⟨hmem, hid⟩ := KeyedRows.Table.rowAt_eq_some.1 hr
    exact ⟨r, hmem, congrArg AccountId.mk hid⟩

/-! ### What the statements do to the accounts -/

/-- The accounts after a row was set. -/
theorem accountAt_update {t t' : AccountsTable} {id : AccountId} {row : Option AccountRow}
    (h : t'.table.rowAt = Function.update t.table.rowAt id.val row) :
    t'.accountAt = Function.update t.accountAt id (row.bind fun r => (Account.fromRow r).toOption) := by
  funext id'
  unfold accountAt
  rw [h]
  by_cases hid : id' = id
  · rw [hid, Function.update_self, Function.update_self]
  · have hval : id'.val ≠ id.val := fun hval => hid (congrArg AccountId.mk hval)
    rw [Function.update_of_ne hval, Function.update_of_ne hid]

/-- An account is inserted if its id is new and it has no rival. -/
theorem insert_spec (t : AccountsTable) (a : Account) :
    (t.insert a = .error .unique ∧ ∃ id b, t.accountAt id = some b ∧ (id = a.id ∨ b.Rivals a)) ∨
      ∃ t', t.insert a = .ok t' ∧ (∀ id b, t.accountAt id = some b → id ≠ a.id ∧ ¬ b.Rivals a) ∧
        t'.accountAt = Function.update t.accountAt a.id (some a.stored) ∧ t'.ids = t.ids ++ [a.id] := by
  unfold insert
  rw [if_neg (not_not.2 (providerText_checked _))]
  split
  · rename_i hnone
    obtain ⟨k, r, hr, htaken⟩ := KeyedRows.Table.insert_eq_none.1 hnone
    have hr : t.table.rowAt (⟨k⟩ : AccountId).val = some r := hr
    obtain ⟨b, rfl, hid⟩ := rowAt_written hr
    refine .inl ⟨rfl, ⟨k⟩, b.stored, accountAt_of_row hr, ?_⟩
    exact htaken.imp (fun hk => congrArg AccountId.mk hk) fun howner => Account.owner_eq.1 howner
  · rename_i table htable
    have hrows : table.rowAt = Function.update t.table.rowAt a.id.val (some a.toRow) :=
      KeyedRows.Table.rowAt_insert htable
    have haccounts : (⟨table, written_insert htable⟩ : AccountsTable).accountAt = _ := accountAt_update hrows
    rw [Option.bind_some, Account.fromRow_toRow] at haccounts
    refine .inr ⟨_, rfl, fun id b hb => ?_, haccounts, ?_⟩
    · obtain ⟨a', hr, -, rfl⟩ := accountAt_eq_some.1 hb
      have hfree : ¬ ∃ k r, t.table.rowAt k = some r ∧ (k = a.toRow.id ∨ r.owner = a.toRow.owner) := by
        rw [← KeyedRows.Table.insert_eq_none, htable]
        exact Option.some_ne_none _
      exact ⟨fun hid => hfree ⟨_, _, hr, .inl (congrArg AccountId.val hid)⟩,
        fun hrival => hfree ⟨_, _, hr, .inr (Account.owner_eq.2 hrival)⟩⟩
    · unfold ids
      rw [(KeyedRows.Table.rows_insert htable).1, List.map_append]
      rfl

/-- An account is updated if it is there and no other account becomes its rival; it keeps the time it was created. -/
theorem update_spec (t : AccountsTable) (a : Account) :
    (t.update a = .ok (false, t) ∧ t.accountAt a.id = none) ∨
      (t.update a = .error .unique ∧ (t.accountAt a.id).isSome ∧
        ∃ id b, id ≠ a.id ∧ t.accountAt id = some b ∧ b.Rivals a) ∨
      ∃ t' old, t.update a = .ok (true, t') ∧ t.accountAt a.id = some old ∧
        (∀ id b, id ≠ a.id → t.accountAt id = some b → ¬ b.Rivals a) ∧
        t'.accountAt = Function.update t.accountAt a.id (some { a with createdAt := old.createdAt }.stored) ∧
        t'.ids = t.ids := by
  cases hrow : t.table.rowAt a.id.val with
  | none =>
    have hzero : t.table.rows.countP (·.id = a.id.val) = 0 := by
      refine Nat.eq_zero_of_not_pos fun hpos => ?_
      rw [KeyedRows.Table.countP_pos, hrow] at hpos
      cases hpos
    refine .inl ⟨if_pos hzero, ?_⟩
    rw [← Option.not_isSome_iff_eq_none, accountAt_isSome, hrow]
    exact Bool.false_ne_true
  | some r =>
    obtain ⟨g, rfl, hg⟩ := rowAt_written hrow
    have hpos : ¬ t.table.rows.countP (·.id = a.id.val) = 0 := by
      refine Nat.pos_iff_ne_zero.1 (KeyedRows.Table.countP_pos.2 ?_)
      rw [hrow]
      rfl
    have hold := accountAt_of_row hrow
    unfold update
    rw [if_neg hpos, if_neg (not_not.2 (providerText_checked _))]
    split
    · rename_i hnone
      obtain ⟨r, k, r', -, hne, hr', howner⟩ := KeyedRows.Table.revise_eq_none.1 hnone
      have hr' : t.table.rowAt (⟨k⟩ : AccountId).val = some r' := hr'
      obtain ⟨b, rfl, -⟩ := rowAt_written hr'
      refine .inr (.inl ⟨rfl, by rw [hold]; rfl, ⟨k⟩, b.stored, fun hid => hne (congrArg AccountId.val hid),
        accountAt_of_row hr', ?_⟩)
      exact Account.owner_eq.1 howner
    · rename_i table htable
      have hrows : table.rowAt = Function.update t.table.rowAt a.id.val
          (some { a with id := g.id, createdAt := g.createdAt }.toRow) := by
        rw [KeyedRows.Table.rowAt_revise htable, hrow]
        rfl
      have haccounts : (⟨table, written_revise htable⟩ : AccountsTable).accountAt = _ := accountAt_update hrows
      rw [Option.bind_some, Account.fromRow_toRow, hg] at haccounts
      refine .inr (.inr ⟨_, g.stored, rfl, hold, fun id b hne hb hrival => ?_, haccounts, ?_⟩)
      · obtain ⟨b', hr', -, rfl⟩ := accountAt_eq_some.1 hb
        have hfree := KeyedRows.Table.revise_eq_none.not.1 (htable ▸ Option.some_ne_none table)
        exact hfree ⟨_, _, _, hrow, fun hval => hne (congrArg AccountId.mk hval), hr', Account.owner_eq.2 hrival⟩
      · unfold ids
        rw [KeyedRows.Table.rows_revise htable, List.map_map]
        refine List.map_congr_left fun r _ => ?_
        exact congrArg AccountId.mk (KeyedRows.Table.key_reviseRow (id_assign a) r)

theorem delete_spec (t : AccountsTable) (id : AccountId) :
    (t.delete id).1 = (t.accountAt id).isSome ∧ (t.delete id).2.accountAt = Function.update t.accountAt id none ∧
      (t.delete id).2.ids = t.ids.filter (· ≠ id) := by
  have hrows : (t.delete id).2.table.rowAt = Function.update t.table.rowAt id.val none :=
    KeyedRows.Table.rowAt_delete t.table id.val
  refine ⟨?_, accountAt_update hrows, ?_⟩
  · rw [accountAt_isSome]
    exact Bool.eq_iff_iff.2 (decide_eq_true_iff.trans KeyedRows.Table.countP_pos)
  · show (t.table.rows.filter _).map _ = (t.table.rows.map _).filter _
    rw [List.filter_map]
    refine congrArg _ (List.filter_congr fun r _ => ?_)
    show decide (r.id ≠ id.val) = decide ((⟨r.id⟩ : AccountId) ≠ id)
    exact decide_eq_decide.2 (not_congr ⟨congrArg AccountId.mk, congrArg AccountId.val⟩)

/-- No two accounts are rivals. -/
theorem eq_of_rivals {t : AccountsTable} {id id' : AccountId} {a b : Account} (ha : t.accountAt id = some a)
    (hb : t.accountAt id' = some b) (h : a.Rivals b) : id = id' := by
  obtain ⟨a', hr, -, rfl⟩ := accountAt_eq_some.1 ha
  obtain ⟨b', hr', -, rfl⟩ := accountAt_eq_some.1 hb
  exact congrArg AccountId.mk (KeyedRows.Table.key_of_owner hr hr' (Account.owner_eq.2 h))

end AccountsTable

end CloudSync
