/-
A directory listed by several calls of `readdir`, each from the last returned offset, while metadata sync changes the
rows between the calls. An offset is a position in the entries as they are at the call: a row that is there at every
call is returned once, unless a change carries it over the offset.
-/
import CloudSync.Lib.PositionCursor
import CloudSync.Vfs.Directory
import CloudSync.Vfs.Convergence

namespace CloudSync

open PositionCursor (Read Behind behind returned skipped rewound finish lastItems)

/-! ## Listings in parts -/

/-- A change of metadata sync. -/
inductive RowChange
  | upsert (now : DateTime) (item : CloudItem)
  | delete (now : DateTime) (fileId : FileId)

def RowChange.apply (c : MetadataCache) : RowChange → MetadataCache
  | .upsert now item => { c with db := (upsertSection c.accountId item now c.db).2 }
  | .delete now fileId => { c with db := (deleteSection c.accountId fileId now c.db).2 }

/-- Some changes, and then a call with its clock, order of the rows and buffer. -/
structure Round where
  changes : List RowChange
  now : DateTime
  scan : Scan
  room : List DirEntry → DirEntry → Bool

/-- A directory that is being listed: the offset to resume at, and the entries returned so far. -/
structure DirSession where
  fs : CloudSyncFS
  offset : Int64
  entries : List DirEntry

namespace DirSession

open CloudSyncFS MetadataCache

def start (fs : CloudSyncFS) : DirSession := ⟨fs, 0, []⟩

/-- The file system when the call is made. -/
def changed (s : DirSession) (round : Round) : CloudSyncFS :=
  { s.fs with metadataCache := round.changes.foldl RowChange.apply s.fs.metadataCache }

def reply (ino : UInt64) (s : DirSession) (round : Round) : Reply (List DirEntry) × CloudSyncFS :=
  (s.changed round).readdir (FsEnv.calm round.now round.scan) ino s.offset round.room

/-- The last returned offset. -/
def resume (offset : Int64) (entries : List DirEntry) : Int64 := (entries.getLast?.map DirEntry.offset).getD offset

def step (ino : UInt64) (s : DirSession) (round : Round) : DirSession :=
  match s.reply ino round with
  | (.ok entries, fs) => ⟨fs, resume s.offset entries, s.entries ++ entries⟩
  | (_, fs) => { s with fs := fs }

def run (ino : UInt64) (s : DirSession) (rounds : List Round) : DirSession := rounds.foldl (step ino) s

/-- The rows the call lists. -/
def listed (path : Str) (s : DirSession) (round : Round) : List FileRow :=
  (s.changed round).metadataCache.childRows round.scan path

/-- The positions of a listing: `.`, `..` and the rows. -/
def slots (rows : List FileRow) : List (Option FileRow) := none :: none :: rows.map some

/-- The calls as reads of the listings. -/
def reads (ino : UInt64) (path : Str) : DirSession → List Round → List (Read (Option FileRow))
  | _, [] => []
  | s, round :: rounds =>
    ⟨slots (s.listed path round), match (s.reply ino round).1 with
      | .ok entries => entries.length
      | _ => 0⟩ :: reads ino path (s.step ino round) rounds

/-- The entry is one of the row, by its number; `.` and `..` have the first two offsets. -/
def IsEntry (m : InodeManager) (r : FileRow) (e : DirEntry) : Prop :=
  2 < e.offset ∧ ⟨e.ino.toInt64, r.providerFileId⟩ ∈ m.db.rows

instance (m : InodeManager) (r : FileRow) : DecidablePred (IsEntry m r) := fun e =>
  inferInstanceAs (Decidable (2 < e.offset ∧ ⟨e.ino.toInt64, r.providerFileId⟩ ∈ m.db.rows))

/-- How often the row was returned. -/
def times (s : DirSession) (r : FileRow) : Nat := s.entries.countP fun e => IsEntry s.fs.inodeManager r e

/-- At the call the directory has the path, the row is in it, and the inode map has room for numbers of its rows. -/
structure Present (ino : UInt64) (path : Str) (r : FileRow) (s : DirSession) (round : Round) : Prop where
  dir : (s.changed round).dirPath (FsEnv.calm round.now round.scan) ino = .ok path
  row : r ∈ s.listed path round
  room : s.fs.inodeManager.nextInode.toNat + (s.listed path round).length < 2 ^ 63

/-! ## One call -/

def entryAt (e : (UInt64 × FileType × Str) × Nat) : DirEntry := ⟨e.1.1, Int64.ofNat (e.2 + 1), e.1.2.1, e.1.2.2⟩

/-- A call returns the entries from some position on, as many as the buffer takes. -/
theorem addEntries_take (room : List DirEntry → DirEntry → Bool) (added : List DirEntry)
    (entries : List ((UInt64 × FileType × Str) × Nat)) :
    ∃ n, addEntries room added entries = added ++ (entries.take n).map entryAt := by
  induction entries generalizing added with
  | nil => exact ⟨0, (List.append_nil _).symm⟩
  | cons e entries ih =>
    obtain ⟨⟨ino, kind, name⟩, i⟩ := e
    rw [addEntries]
    split
    · obtain ⟨n, hn⟩ := ih (added ++ [⟨ino, Int64.ofNat (i + 1), kind, name⟩])
      refine ⟨n + 1, ?_⟩
      rw [hn, List.append_assoc]
      rfl
    · exact ⟨0, (List.append_nil _).symm⟩

/-- A buffer that takes one entry takes the first. -/
theorem addEntries_eq_nil {room : List DirEntry → DirEntry → Bool} (hroom : ∀ e, room [] e = true)
    {entries : List ((UInt64 × FileType × Str) × Nat)} (h : addEntries room [] entries = []) : entries = [] := by
  cases entries with
  | nil => rfl
  | cons e entries =>
    obtain ⟨⟨ino, kind, name⟩, i⟩ := e
    rw [addEntries, if_pos (hroom _)] at h
    obtain ⟨n, hn⟩ := addEntries_take room ([] ++ [⟨ino, Int64.ofNat (i + 1), kind, name⟩]) entries
    rw [hn] at h
    cases h

/-- The entry of a position: one of the first two for `.` and `..`, and one with the number of the row for a row. -/
def SlotEntry (m : InodeManager) : Option FileRow → DirEntry → Prop
  | none, e => ¬ 2 < e.offset
  | some r, e => IsEntry m r e

theorem toInt_ofNat_succ {i : Nat} (h : i + 1 < 2 ^ 63) : (Int64.ofNat (i + 1)).toInt = i + 1 :=
  Int64.toInt_ofNat_of_lt h

theorem toNat_offset {n : Nat} (h : n < 2 ^ 63) : (Int64.ofNat n).toUInt64.toNat = n := by
  have hint := Int64.toInt_ofNat_of_lt h
  have hnat := toNat_toUInt64 (v := Int64.ofNat n) (by omega)
  omega

/-- The entries of all positions. -/
theorem slotEntries {m : InodeManager} {rows : List FileRow} {entries : List (UInt64 × FileType × Str)}
    (h : List.Forall₂ (fun r e => ⟨e.1.toInt64, r.providerFileId⟩ ∈ m.db.rows) rows entries) (dot dotdot)
    (hlength : rows.length + 2 < 2 ^ 63) :
    List.Forall₂ (fun slot e => SlotEntry m slot (entryAt e)) (slots rows) ((dot :: dotdot :: entries).zipIdx) := by
  have hsame := h.length_eq
  have hdot : ¬ (2 : Int64) < Int64.ofNat 1 := by decide
  have hdotdot : ¬ (2 : Int64) < Int64.ofNat 2 := by decide
  refine .cons hdot (.cons hdotdot ?_)
  refine List.forall₂_map_left_iff.2 (List.forall₂_iff_get.2 ⟨?_, fun i hi hi' => ?_⟩)
  · rw [List.length_zipIdx, hsame]
  · rw [List.length_zipIdx] at hi'
    have hmem := h.get hi hi'
    show IsEntry m _ (entryAt ((entries.zipIdx 2).get ⟨i, _⟩))
    simp only [List.get_eq_getElem, List.getElem_zipIdx]
    refine ⟨?_, hmem⟩
    show (2 : Int64) < Int64.ofNat (2 + i + 1)
    rw [Int64.lt_iff_toInt_lt, toInt_ofNat_succ (by omega)]
    show (2 : Int) < _
    omega

/-- The offset to resume at after a call that began at `cursor`. -/
theorem resume_take {offset : Int64} {cursor n : Nat} {entries : List (UInt64 × FileType × Str)}
    (hoffset : offset.toUInt64.toNat = cursor) (hlength : entries.length < 2 ^ 63) :
    (resume offset (((entries.zipIdx.drop cursor).take n).map entryAt)).toUInt64.toNat =
      cursor + ((entries.zipIdx.drop cursor).take n).length := by
  unfold resume
  generalize htaken : (entries.zipIdx.drop cursor).take n = taken
  rcases List.eq_nil_or_concat taken with rfl | ⟨front, last, rfl⟩
  · exact hoffset
  · rw [List.concat_eq_append] at htaken ⊢
    rw [List.map_append, List.map_singleton, List.getLast?_concat, List.length_append, List.length_singleton]
    -- the last entry has the position before the next offset
    have hget : (front ++ [last])[front.length]? = some last := List.getElem?_concat_length
    rw [← htaken, List.getElem?_take] at hget
    split at hget
    · rw [List.getElem?_drop, List.getElem?_zipIdx, Option.map_eq_some_iff] at hget
      obtain ⟨e, he, rfl⟩ := hget
      have hlt : cursor + front.length < entries.length := (List.getElem?_eq_some_iff.1 he).1
      show (Int64.ofNat (0 + (cursor + front.length) + 1)).toUInt64.toNat = _
      rw [toNat_offset (by omega)]
      omega
    · cases hget

/-- Every row under a path gets a number and an entry with it. -/
theorem childEntries_rows {m : InodeManager} (h : m.Ready) (now : DateTime) {scan : Scan} {path : Str}
    {c : MetadataCache} (hroom : m.nextInode.toNat + (c.childRows scan path).length < 2 ^ 63) :
    ∃ listed m', childEntries (FsEnv.calm now scan).allocate (c.childrenAt scan now path) m = (listed, m') ∧
      m.Extends (c.childRows scan path).length m' ∧
      List.Forall₂ (fun r e => ⟨e.1.toInt64, r.providerFileId⟩ ∈ m'.db.rows) (c.childRows scan path) listed := by
  have hshown := (getChildren_rows scan now path c).2
  have hcount := hshown.length_eq
  obtain ⟨listed, m', hlisted, hext, hnumbers⟩ := @childEntries_forall now scan _ m h (hcount ▸ hroom)
  refine ⟨listed, m', hlisted, hcount ▸ hext, ?_⟩
  refine List.forall₂_iff_get.2 ⟨hcount.trans hnumbers.length_eq, fun i hi hi' => ?_⟩
  have hi'' := hnumbers.length_eq ▸ hi'
  obtain ⟨f, hrow, hfile⟩ := hshown.get hi hi''
  have hmem := (hnumbers.get hi'' hi').2
  rw [hfile] at hmem
  rw [hrow]
  exact hmem

variable {ino : UInt64} {path : Str} {r : FileRow} {s : DirSession} {round : Round}

/-- What a call answers: the entries of the positions from the offset on, then the offset after them. A buffer that
takes an entry gets none only at the end of the listing. -/
theorem reply_spec (h : s.fs.inodeManager.Ready) (hp : Present ino path r s round) :
    ∃ entries m', s.reply ino round = (.ok entries, { s.changed round with inodeManager := m' }) ∧
      s.fs.inodeManager.Extends (s.listed path round).length m' ∧
      List.Forall₂ (SlotEntry m')
        (((slots (s.listed path round)).drop s.offset.toUInt64.toNat).take entries.length) entries ∧
      (resume s.offset entries).toUInt64.toNat = s.offset.toUInt64.toNat + entries.length ∧
      ((∀ e, round.room [] e = true) → entries = [] →
        (slots (s.listed path round)).length ≤ s.offset.toUInt64.toNat) := by
  have hchildren := (getChildren_rows round.scan round.now path (s.changed round).metadataCache).1
  have hspace := hp.room
  obtain ⟨listed, m', hlisted, hext, hrows⟩ :=
    childEntries_rows h round.now (c := (s.changed round).metadataCache) hspace
  change List.Forall₂ _ (s.listed path round) listed at hrows
  -- the root has a number below the counter
  have hroot := h.below _ h.root
  have hone : InodeSession.rootRow.inode.toInt = 1 := rfl
  have hall := slotEntries hrows (ino, FileType.directory, ['.']) (fuseRootInode, FileType.directory, ['.', '.'])
    (by omega)
  have hsame := hrows.length_eq
  generalize hfull : ((ino, FileType.directory, ['.']) :: (fuseRootInode, FileType.directory, ['.', '.']) :: listed :
    List (UInt64 × FileType × Str)) = full at hall
  have hlength : full.length = (s.listed path round).length + 2 := by
    rw [← hfull, List.length_cons, List.length_cons, hsame]
  have hreply : s.reply ino round =
      (.ok (addEntries round.room [] (full.zipIdx.drop s.offset.toUInt64.toNat)),
        { s.changed round with inodeManager := m' }) := by
    unfold reply readdir
    rw [hp.dir]
    simp only [FsEnv.calm_scan, FsEnv.calm_list, FsEnv.calm_now, hchildren,
      show (s.changed round).inodeManager = s.fs.inodeManager from rfl, hlisted, List.cons_append, List.nil_append,
      hfull]
  obtain ⟨n, hn⟩ := addEntries_take round.room [] (full.zipIdx.drop s.offset.toUInt64.toNat)
  rw [List.nil_append] at hn
  have hentries := List.forall₂_map_right_iff.2 (List.forall₂_take n (List.forall₂_drop s.offset.toUInt64.toNat hall))
  rw [← hn] at hentries
  refine ⟨_, m', hreply, hext, ?_, ?_, fun hroom hnil => ?_⟩
  · have hcut : ((slots (s.listed path round)).drop s.offset.toUInt64.toNat).take n =
        ((slots (s.listed path round)).drop s.offset.toUInt64.toNat).take
          (addEntries round.room [] (full.zipIdx.drop s.offset.toUInt64.toNat)).length := by
      rw [← hentries.length_eq, List.take_eq_take_iff, List.length_take]
      omega
    rw [← hcut]
    exact hentries
  · rw [hn, resume_take rfl (by omega), List.length_map]
  · have hdrop := addEntries_eq_nil hroom hnil
    rw [hall.length_eq]
    exact List.drop_eq_nil_iff.1 hdrop

/-! ## Runs -/

theorem IsEntry.mono {m m' : InodeManager} (h : ∀ row ∈ m.db.rows, row ∈ m'.db.rows) {e : DirEntry}
    (he : IsEntry m r e) : IsEntry m' r e := ⟨he.1, h _ he.2⟩

/-- The entries of a row are those of its positions. -/
theorem countP_entries {m : InodeManager} {taken : List (Option FileRow)} {entries : List DirEntry}
    (h : List.Forall₂ (SlotEntry m) taken entries)
    (hids : ∀ r', some r' ∈ taken → r'.providerFileId = r.providerFileId → r' = r) :
    (entries.countP fun e => IsEntry m r e) = taken.count (some r) := by
  induction h with
  | nil => rfl
  | @cons slot e taken entries hslot _ ih =>
    have hhead : IsEntry m r e ↔ slot = some r := by
      cases slot with
      | none => exact iff_of_false (fun he => hslot he.1) fun heq => by cases heq
      | some r' =>
        constructor
        · intro he
          have hsame := List.inj_on_of_nodup_map m.db.inodesNodup hslot.2 he.2 rfl
          exact congrArg some (hids r' List.mem_cons_self (congrArg InodeRow.fileId hsame))
        · rintro ⟨⟩
          exact hslot
    rw [List.countP_cons, List.count_cons, ih fun r' hr' => hids r' (List.mem_cons_of_mem _ hr')]
    simp only [hhead, beq_iff_eq, decide_eq_true_eq]

/-- A row that is listed has one position. -/
theorem count_slots {c : MetadataCache} {scan : Scan} (h : r ∈ c.childRows scan path) :
    (slots (c.childRows scan path)).count (some r) = 1 := by
  have hids : ((c.childRows scan path).map FileRow.providerFileId).Nodup :=
    List.Nodup.sublist (List.filter_sublist.map _) (scan.accountRows_nodup c.accountId c.db.files)
  unfold slots
  rw [List.count_cons_of_ne (by simp), List.count_cons_of_ne (by simp),
    List.count_map_of_injective _ _ (Option.some_injective _)]
  exact List.count_eq_one_of_mem (List.Nodup.of_map _ hids) h

theorem mem_slots {rows : List FileRow} (h : r ∈ rows) : some r ∈ slots rows :=
  List.mem_cons_of_mem _ (List.mem_cons_of_mem _ (List.mem_map_of_mem h))

/-- What the calls of a run return, against the reads of the listings. -/
theorem run_spec (rounds : List Round) (s : DirSession) (h : s.fs.inodeManager.Ready)
    (hpresent : ∀ before round after, rounds = before ++ round :: after →
      Present ino path r (run ino s before) round) :
    (run ino s rounds).fs.inodeManager.Ready ∧
      (∀ row ∈ s.fs.inodeManager.db.rows, row ∈ (run ino s rounds).fs.inodeManager.db.rows) ∧
      (∀ read ∈ reads ino path s rounds, read.items.count (some r) = 1) ∧
      (run ino s rounds).offset.toUInt64.toNat = finish s.offset.toUInt64.toNat (reads ino path s rounds) ∧
      ∃ new, (run ino s rounds).entries = s.entries ++ new ∧
        (new.countP fun e => IsEntry (run ino s rounds).fs.inodeManager r e) =
          returned (some r) s.offset.toUInt64.toNat (reads ino path s rounds) := by
  induction rounds generalizing s with
  | nil => exact ⟨h, fun _ => id, fun _ hread => (by cases hread), rfl, [], (List.append_nil _).symm, rfl⟩
  | cons round rounds ih =>
    have hp := hpresent [] round rounds rfl
    obtain ⟨entries, m', hreply, hext, hslots, hresume, -⟩ := reply_spec h hp
    have hstep : s.step ino round =
        ⟨{ s.changed round with inodeManager := m' }, resume s.offset entries, s.entries ++ entries⟩ := by
      unfold step
      rw [hreply]
    have hreads : reads ino path s (round :: rounds) =
        ⟨slots (s.listed path round), entries.length⟩ :: reads ino path (s.step ino round) rounds := by
      rw [reads, hreply]
    have hnext : Read.next ⟨slots (s.listed path round), entries.length⟩ s.offset.toUInt64.toNat =
        (s.step ino round).offset.toUInt64.toNat := by
      rw [hstep, hresume]
      show s.offset.toUInt64.toNat + (((slots (s.listed path round)).drop _).take entries.length).length = _
      rw [hslots.length_eq]
    obtain ⟨hready, hrows, hcounts, hfinish, new, hnew, htimes⟩ := ih (s.step ino round) (hstep ▸ hext.ready)
      fun before round' after heq => hpresent (round :: before) round' after (congrArg (round :: ·) heq)
    have hmanager : (s.step ino round).fs.inodeManager = m' := by rw [hstep]
    have hentries : (s.step ino round).entries = s.entries ++ entries := by rw [hstep]
    rw [hmanager] at hrows
    rw [hentries, List.append_assoc] at hnew
    have hkept : ∀ row ∈ m'.db.rows, row ∈ (run ino s (round :: rounds)).fs.inodeManager.db.rows := hrows
    refine ⟨hready, fun row hrow => hkept row (hext.rows row hrow), ?_, ?_, entries ++ new, hnew, ?_⟩
    · rw [hreads]
      exact List.forall_mem_cons.2 ⟨count_slots hp.row, hcounts⟩
    · rw [hreads]
      show _ = finish (Read.next _ _) _
      rw [hnext]
      exact hfinish
    · have hfirst := countP_entries (r := r) (hslots.imp fun slot e he => show SlotEntry
          (run ino s (round :: rounds)).fs.inodeManager slot e by
        cases slot with
        | none => exact he
        | some r' => exact IsEntry.mono hkept he) fun r' hr' hid => by
          have hmem : some r' ∈ slots (s.listed path round) := List.mem_of_mem_drop (List.mem_of_mem_take hr')
          have hrow : r' ∈ s.listed path round := by
            unfold slots at hmem
            simpa using hmem
          obtain ⟨hown, hacc, -⟩ := mem_childRows.1 hrow
          obtain ⟨hown', hacc', -⟩ := mem_childRows.1 hp.row
          exact List.inj_on_of_nodup_map (FilesTable.keysNodup _) hown hown' (Prod.ext (hacc.trans hacc'.symm) hid)
      rw [hreads, List.countP_append, hfirst]
      show _ + (new.countP fun e => IsEntry (run ino (s.step ino round) rounds).fs.inodeManager r e) =
        _ + returned _ (Read.next _ _) _
      rw [hnext, htimes]
      rfl

theorem run_append (ino : UInt64) (s : DirSession) (rounds rounds' : List Round) :
    run ino s (rounds ++ rounds') = run ino (run ino s rounds) rounds' := List.foldl_append

theorem reads_append (s : DirSession) (rounds rounds' : List Round) :
    reads ino path s (rounds ++ rounds') = reads ino path s rounds ++ reads ino path (run ino s rounds) rounds' := by
  induction rounds generalizing s with
  | nil => rfl
  | cons round rounds ih =>
    rw [List.cons_append, reads, reads, ih]
    rfl

/-- A row that is in the directory at every call, until one with room for an entry returns nothing, is returned exactly
once if and only if the changes between the calls carry it behind the offset as often as they carry it back; so it is
if none carries it over the offset. -/
theorem listed_once_iff (ino : UInt64) (path : Str) (r : FileRow) (fs : CloudSyncFS) (rounds : List Round)
    (final : Round) (hready : fs.inodeManager.Ready)
    (hpresent : ∀ before round after, rounds ++ [final] = before ++ round :: after →
      Present ino path r (run ino (start fs) before) round)
    (hroom : ∀ e, final.room [] e = true)
    (hend : ((run ino (start fs) rounds).reply ino final).1 = .ok []) :
    ((run ino (start fs) (rounds ++ [final])).times r = 1 ↔
      skipped (some r) [] 0 (reads ino path (start fs) (rounds ++ [final])) =
        rewound (some r) [] 0 (reads ino path (start fs) (rounds ++ [final]))) ∧
    (PositionCursor.Kept (some r) [] 0 (reads ino path (start fs) (rounds ++ [final])) →
      (run ino (start fs) (rounds ++ [final])).times r = 1) := by
  obtain ⟨-, -, hcounts, hfinish, new, hnew, htimes⟩ := run_spec (rounds ++ [final]) (start fs) hready hpresent
  -- the run without its last call, which returns nothing
  have hpresent' : ∀ before round after, rounds = before ++ round :: after →
      Present ino path r (run ino (start fs) before) round := fun before round after heq =>
    hpresent before round (after ++ [final]) (by rw [heq, List.append_assoc, List.cons_append])
  have hready' := (run_spec rounds (start fs) hready hpresent').1
  have hp := hpresent rounds final [] rfl
  obtain ⟨entries, m', hreply, -, -, -, hlast⟩ := reply_spec hready' hp
  rw [hreply] at hend
  cases hend
  have hrun : (run ino (start fs) (rounds ++ [final])).offset = (run ino (start fs) rounds).offset := by
    rw [run_append]
    show (DirSession.step ino (run ino (start fs) rounds) final).offset = _
    unfold step
    rw [hreply]
    rfl
  have htotal : (run ino (start fs) (rounds ++ [final])).times r =
      returned (some r) 0 (reads ino path (start fs) (rounds ++ [final])) := by
    unfold times
    rw [hnew]
    exact htimes
  have hbehind : Behind (some r) (lastItems [] (reads ino path (start fs) (rounds ++ [final])))
      (finish 0 (reads ino path (start fs) (rounds ++ [final]))) := by
    have hcursor : finish 0 (reads ino path (start fs) (rounds ++ [final])) =
        (run ino (start fs) rounds).offset.toUInt64.toNat := by rw [← hrun, hfinish]; rfl
    have hitems : lastItems [] (reads ino path (start fs) (rounds ++ [final])) =
        slots ((run ino (start fs) rounds).listed path final) := by
      rw [reads_append]
      exact List.foldl_append
    rw [hcursor, hitems]
    exact PositionCursor.behind_of_length_le (mem_slots hp.row) (hlast hroom rfl)
  have honce := PositionCursor.once_iff hcounts hbehind
  rw [htotal]
  refine ⟨honce, fun hkept => honce.2 ?_⟩
  rw [hkept.not_carried.1, hkept.not_carried.2]

/-! ## Samples -/

/-- A call with room for three entries. -/
def threeEntries (changes : List RowChange) : Round where
  changes := changes
  now := DateTime.epoch
  scan := Scan.byRowid
  room := fun added _ => added.length < 3

/-- Two files of the root; the first call returns `.`, `..` and the first file. -/
def twoListed : CloudSyncFS := twoFiles ['m'] ['n']

/-- A third file is stored, which sorts behind the other two. -/
def thirdFile : RowChange := .upsert DateTime.epoch (sampleItem ['h'] ['z'])

/-- The second file is returned once. -/
theorem listed_once_sample : ∃ r : FileRow, r.providerFileId = ['g'] ∧
    (run 1 (start twoListed) ([threeEntries [], threeEntries [thirdFile]] ++ [threeEntries []])).times r = 1 := by
  refine ⟨_, rfl, (listed_once_iff 1 ['/'] (twoListed.metadataCache.db.files.rows.getLast (by decide)) twoListed
    [threeEntries [], threeEntries [thirdFile]] (threeEntries []) (twoFiles_ready _ _) ?_ (fun _ => rfl)
    (by decide +kernel)).1.2 (by decide +kernel)⟩
  rintro before round after heq
  rcases before with _ | ⟨_, _ | ⟨_, _ | ⟨_, before⟩⟩⟩
  · cases heq
    exact ⟨rfl, by decide +kernel, by decide +kernel⟩
  · cases heq
    exact ⟨rfl, by decide +kernel, by decide +kernel⟩
  · cases heq
    exact ⟨rfl, by decide +kernel, by decide +kernel⟩
  · simp at heq

/-- The first file is deleted after the call that returned it. The second file moves to the offset before that of the
next call and is never returned. -/
theorem shifted_file_missing : ∃ r : FileRow, r.providerFileId = ['g'] ∧
    (∀ before round after, [threeEntries [], threeEntries [.delete DateTime.epoch ⟨['f']⟩]] = before ++ round :: after →
      Present 1 ['/'] r (run 1 (start twoListed) before) round) ∧
    (∀ changes e, (threeEntries changes).room [] e = true) ∧
    ((run 1 (start twoListed) [threeEntries []]).reply 1 (threeEntries [.delete DateTime.epoch ⟨['f']⟩])).1 = .ok [] ∧
    (run 1 (start twoListed) [threeEntries [], threeEntries [.delete DateTime.epoch ⟨['f']⟩]]).times r = 0 := by
  refine ⟨twoListed.metadataCache.db.files.rows.getLast (by decide), rfl, ?_, fun _ _ => rfl, by decide +kernel,
    by decide +kernel⟩
  rintro before round after heq
  rcases before with _ | ⟨_, _ | ⟨_, before⟩⟩
  · cases heq
    exact ⟨rfl, by decide +kernel, by decide +kernel⟩
  · cases heq
    exact ⟨rfl, by decide +kernel, by decide +kernel⟩
  · simp at heq

end DirSession

end CloudSync
