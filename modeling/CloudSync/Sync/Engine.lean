/-
`SyncEngine`: initial sync queues a download for every listed file, and `execute_operations` pops
until the queue is empty or the limit is reached. The provider's answers and what a download does
locally are arguments. Every file goes to the place its path names under the local root, so each
keeps its own content exactly when no two of them name the same place.
-/
import CloudSync.Lib.UnixPath
import CloudSync.Lib.KeyedLog
import CloudSync.Sync.QueueOrder
import CloudSync.Providers.GDrive

namespace CloudSync

open KeyedLog (Entry Cell)

namespace SyncEngine

/-! ## Queueing -/

/-- The provider's answers. -/
structure Provider where
  listFolder : CloudPath → Except CloudError (List CloudItem)
  getChanges : Option Cursor → Except CloudError ChangeList

/-- The id and the time of the n-th operation that is created. -/
abbrev Stamp := Nat → OperationId × DateTime

def initialOperation (stamp : Stamp) (accountId : AccountId) (n : Nat) (item : CloudItem) : SyncOperation :=
  .downloadHighPriority (stamp n).1 (stamp n).2 accountId item.id item.path item.size

def initialSync (H : OperationHeap) (provider : Provider) (stamp : Stamp) (accountId : AccountId)
    (providerRoot : CloudPath) (queue : H.Heap) : Except EngineError Nat × H.Heap :=
  match provider.listFolder providerRoot with
  | .error e => (.error (.sync ("Failed to list folder during initial sync: ".toList ++ e.toString)), queue)
  | .ok items =>
    let (queuedCount, queue) := items.foldl (fun (n, queue) item =>
      if item.isFolder then (n, queue)
      else (n + 1, SyncQueue.push H queue (initialOperation stamp accountId n item))) (0, queue)
    match provider.getChanges none with
    | .error e => (.error (.sync ("Failed to get initial change token: ".toList ++ e.toString)), queue)
    | .ok _ => (.ok queuedCount, queue)

/-! ## Execution -/

/-- What the operating system and the provider do for a download. -/
structure LocalOps (σ : Type) where
  createDirAll : UnixPath.Text → σ → Except Str Unit × σ
  download : FileId → UnixPath.Text → σ → Except CloudError Unit × σ

/-- The local path of a cloud path: `local_root.join(path.trim_start_matches('/'))` -/
def localPath (localRoot : UnixPath.Text) (path : CloudPath) : UnixPath.Text :=
  UnixPath.join localRoot (path.asStr.dropWhile (· = '/'))

section

variable {σ : Type} (ops : LocalOps σ) (localRoot : UnixPath.Text)

def executeDownload (operation : SyncOperation) (s : σ) : Except EngineError Unit × σ :=
  let local_path := localPath localRoot operation.path
  let created := match UnixPath.parent local_path with
    | some parent => ops.createDirAll parent s
    | none => (.ok (), s)
  match created with
  | (.error e, s) => (.error (.sync ("Failed to create directories: ".toList ++ e)), s)
  | (.ok _, s) => match ops.download operation.fileId local_path s with
    | (.error e, s) =>
      (.error (.sync ("Provider download failed for ".toList ++ operation.fileId.val ++ ": ".toList ++ e.toString)), s)
    | (.ok _, s) => (.ok (), s)

/-- One popped operation: a download that succeeds is counted, one that fails is logged, and every
other type is skipped. -/
def executeOne (acc : σ × Nat) (operation : SyncOperation) : σ × Nat :=
  match operation.operationType with
  | .download => match executeDownload ops localRoot operation acc.1 with
    | (.ok _, s) => (s, acc.2 + 1)
    | (.error _, s) => (s, acc.2)
  | _ => acc

/-- The loop of `execute_operations`. -/
def executeLoop (H : OperationHeap) (limit : Nat) : Nat → H.Heap → σ × Nat → Except EngineError Nat × H.Heap × σ
  | 0, queue, (s, executed) => (.ok executed, queue, s)
  | fuel + 1, queue, (s, executed) =>
    if executed < limit then
      match SyncQueue.pop H queue with
      | (.ok operation, queue) => executeLoop H limit fuel queue (executeOne ops localRoot (s, executed) operation)
      | (.error .queueEmpty, queue) => (.ok executed, queue, s)
      | (.error e, queue) => (.error (.sync ("Failed to pop from queue: ".toList ++ e.toString)), queue, s)
    else (.ok executed, queue, s)

/-- `usize::MAX` -/
def usizeMax : Nat := 2 ^ 64 - 1

/-- Every round of the loop takes an operation out of the queue, so its length bounds them. -/
def executeOperations (H : OperationHeap) (maxOperations : Option Nat) (queue : H.Heap) (s : σ) :
    Except EngineError Nat × H.Heap × σ :=
  executeLoop ops localRoot H (maxOperations.getD usizeMax) (SyncQueue.len H queue + 1) queue (s, 0)

/-- The loop executes the operations it pops one after the other, each while the limit is not reached, and stops when
the queue is empty or the limit is reached. -/
theorem executeLoop_popped (H : OperationHeap) (limit : Nat) :
    ∀ (fuel : Nat) (queue : H.Heap) (acc : σ × Nat), SyncQueue.len H queue < fuel →
      ∃ (taken : List SyncOperation) (queue' : H.Heap),
        executeLoop ops localRoot H limit fuel queue acc =
          (.ok (taken.foldl (executeOne ops localRoot) acc).2, queue', (taken.foldl (executeOne ops localRoot) acc).1) ∧
        SyncQueue.contents H queue = taken + SyncQueue.contents H queue' ∧
        taken = SyncQueue.popAll H taken.length queue ∧
        (∀ front operation, front ++ [operation] <+: taken →
          (front.foldl (executeOne ops localRoot) acc).2 < limit) ∧
        (SyncQueue.contents H queue' = 0 ∨ limit ≤ (taken.foldl (executeOne ops localRoot) acc).2)
  | 0, _, _, hfuel => absurd hfuel (Nat.not_lt_zero _)
  | fuel + 1, queue, (s, executed), hfuel => by
    unfold executeLoop
    have hnothing : SyncQueue.contents H queue = ([] : List SyncOperation) + SyncQueue.contents H queue := by
      rw [Multiset.coe_nil, Multiset.zero_add]
    have hfront : ∀ front operation, front ++ [operation] <+: [] →
        (front.foldl (executeOne ops localRoot) (s, executed)).2 < limit := fun front operation h =>
      absurd (List.prefix_nil.1 h) (List.append_ne_nil_of_right_ne_nil front (List.cons_ne_nil operation []))
    by_cases hlimit : executed < limit
    · rw [if_pos hlimit]
      rcases SyncQueue.pop_spec queue with ⟨operation, queue₁, hpop, hcontents, -⟩ | ⟨hpop, hempty⟩
      · have hlen : SyncQueue.len H queue₁ < fuel := by
          have hcard := congrArg Multiset.card hcontents
          rw [Multiset.card_cons, SyncQueue.card_contents, SyncQueue.card_contents] at hcard
          omega
        obtain ⟨taken, queue', hrun, hsplit, hpops, hbelow, hstop⟩ :=
          executeLoop_popped H limit fuel queue₁ (executeOne ops localRoot (s, executed) operation) hlen
        refine ⟨operation :: taken, queue', ?_, ?_, ?_, fun front operation' hpre => ?_, hstop⟩
        · rw [hpop]; exact hrun
        · rw [hcontents, hsplit, ← Multiset.cons_coe, Multiset.cons_add]
        · rw [List.length_cons, SyncQueue.popAll, hpop]
          exact congrArg (operation :: ·) hpops
        · cases front with
          | nil => exact hlimit
          | cons first front =>
            obtain ⟨rfl, htail⟩ := List.cons_prefix_cons.1 hpre
            exact hbelow front operation' htail
      · exact ⟨[], queue, by rw [hpop]; rfl, hnothing, rfl, hfront, .inl hempty⟩
    · rw [if_neg hlimit]
      exact ⟨[], queue, rfl, hnothing, rfl, hfront, .inr (Nat.le_of_not_lt hlimit)⟩

theorem executeLoop_spec (H : OperationHeap) (limit fuel : Nat) (queue : H.Heap) (acc : σ × Nat)
    (hfuel : SyncQueue.len H queue < fuel) :
    ∃ (taken : List SyncOperation) (queue' : H.Heap),
      executeLoop ops localRoot H limit fuel queue acc =
        (.ok (taken.foldl (executeOne ops localRoot) acc).2, queue', (taken.foldl (executeOne ops localRoot) acc).1) ∧
      SyncQueue.contents H queue = taken + SyncQueue.contents H queue' ∧
      (SyncQueue.contents H queue' = 0 ∨ limit ≤ (taken.foldl (executeOne ops localRoot) acc).2) := by
  obtain ⟨taken, queue', hrun, hsplit, -, -, hstop⟩ := executeLoop_popped ops localRoot H limit fuel queue acc hfuel
  exact ⟨taken, queue', hrun, hsplit, hstop⟩

end

/-! ## What initial sync queues -/

/-- The operations queued for a listing, `n` having been created before. -/
def queuedOperations (stamp : Stamp) (accountId : AccountId) : Nat → List CloudItem → List SyncOperation
  | _, [] => []
  | n, item :: items =>
    if item.isFolder then queuedOperations stamp accountId n items
    else initialOperation stamp accountId n item :: queuedOperations stamp accountId (n + 1) items

section

variable {stamp : Stamp} {accountId : AccountId}

/-- The operations are downloads of the listed files. -/
theorem mem_queuedOperations {operation : SyncOperation} : ∀ {n : Nat} {items : List CloudItem},
    operation ∈ queuedOperations stamp accountId n items →
      operation.operationType = .download ∧
        ∃ item ∈ items, item.isFolder = false ∧ operation.fileId = item.id ∧ operation.path = item.path
  | n, item :: items, h => by
    unfold queuedOperations at h
    cases hfolder : item.isFolder with
    | true =>
      rw [hfolder, if_pos rfl] at h
      obtain ⟨htype, item', hmem, hrest⟩ := mem_queuedOperations h
      exact ⟨htype, item', List.mem_cons_of_mem _ hmem, hrest⟩
    | false =>
      rw [hfolder, if_neg Bool.false_ne_true] at h
      rcases List.mem_cons.1 h with rfl | h
      · exact ⟨rfl, item, List.mem_cons_self, hfolder, rfl, rfl⟩
      · obtain ⟨htype, item', hmem, hrest⟩ := mem_queuedOperations h
        exact ⟨htype, item', List.mem_cons_of_mem _ hmem, hrest⟩

variable (stamp accountId) in
/-- Every listed file has its operation. -/
theorem exists_queuedOperation {item : CloudItem} (hfile : item.isFolder = false) :
    ∀ {n : Nat} {items : List CloudItem}, item ∈ items →
      ∃ operation ∈ queuedOperations stamp accountId n items, operation.fileId = item.id ∧ operation.path = item.path
  | n, item' :: items, h => by
    unfold queuedOperations
    rcases List.mem_cons.1 h with rfl | h
    · rw [hfile, if_neg Bool.false_ne_true]
      exact ⟨_, List.mem_cons_self, rfl, rfl⟩
    · split
      · exact exists_queuedOperation hfile h
      · obtain ⟨operation, hmem, hop⟩ := exists_queuedOperation hfile (n := n + 1) h
        exact ⟨operation, List.mem_cons_of_mem _ hmem, hop⟩

theorem length_queuedOperations : ∀ (n : Nat) (items : List CloudItem),
    (queuedOperations stamp accountId n items).length ≤ items.length
  | _, [] => Nat.le_refl 0
  | n, item :: items => by
    unfold queuedOperations
    split
    · exact Nat.le_succ_of_le (length_queuedOperations n items)
    · exact Nat.succ_le_succ (length_queuedOperations (n + 1) items)

variable (stamp accountId) in
theorem foldl_queue (H : OperationHeap) : ∀ (items : List CloudItem) (n : Nat) (queue : H.Heap),
    items.foldl (fun (n, queue) item =>
        if item.isFolder then (n, queue)
        else (n + 1, SyncQueue.push H queue (initialOperation stamp accountId n item))) (n, queue) =
      (n + (queuedOperations stamp accountId n items).length,
        (queuedOperations stamp accountId n items).foldl (SyncQueue.push H) queue)
  | [], n, queue => rfl
  | item :: items, n, queue => by
    rw [List.foldl_cons]
    unfold queuedOperations
    cases hfolder : item.isFolder with
    | true => exact foldl_queue H items n queue
    | false =>
      have hrest := foldl_queue H items (n + 1) (SyncQueue.push H queue (initialOperation stamp accountId n item))
      simp only [Bool.false_eq_true, if_false] at hrest ⊢
      rw [hrest, List.length_cons, List.foldl_cons]
      congr 1
      omega

/-- When the provider answers, initial sync queues the operations of the listing. -/
theorem initialSync_ok (H : OperationHeap) {provider : Provider} {root : CloudPath} {items : List CloudItem}
    {changes : ChangeList} (queue : H.Heap) (hlist : provider.listFolder root = .ok items)
    (hchanges : provider.getChanges none = .ok changes) :
    ∃ queue', initialSync H provider stamp accountId root queue =
        (.ok (queuedOperations stamp accountId 0 items).length, queue') ∧
      SyncQueue.contents H queue' = queuedOperations stamp accountId 0 items + SyncQueue.contents H queue := by
  refine ⟨(queuedOperations stamp accountId 0 items).foldl (SyncQueue.push H) queue, ?_, ?_⟩
  · unfold initialSync
    rw [hlist]
    simp only
    rw [foldl_queue, hchanges, Nat.zero_add]
  · exact SyncQueue.contents_foldl_push _ queue

end

/-! ## What the downloads leave on disk -/

/-- The files on the local disk, by their place. -/
abbrev LocalFiles := List UnixPath.Text → Option Bytes

/-- Every directory can be created, and every download writes its file's content. -/
def saving (cwd : List UnixPath.Text) (content : FileId → Bytes) : LocalOps LocalFiles where
  createDirAll _ files := (.ok (), files)
  download id path files := (.ok (), Function.update files (UnixPath.resolve cwd path) (some (content id)))

section

variable (cwd : List UnixPath.Text) (content : FileId → Bytes) (localRoot : UnixPath.Text)

/-- The place a cloud path is downloaded to. -/
def place (path : CloudPath) : List UnixPath.Text := UnixPath.resolve cwd (localPath localRoot path)

/-- The write of an operation. -/
def written (operation : SyncOperation) : Entry (List UnixPath.Text) Bytes :=
  .set (place cwd localRoot operation.path) (content operation.fileId)

theorem executeOne_saving (files : LocalFiles) (n : Nat) {operation : SyncOperation}
    (hdownload : operation.operationType = .download) :
    executeOne (saving cwd content) localRoot (files, n) operation =
      ((Cell.plain Bytes).apply files (written cwd content localRoot operation), n + 1) := by
  have hexec : executeDownload (saving cwd content) localRoot operation files =
      (.ok (), Function.update files (place cwd localRoot operation.path) (some (content operation.fileId))) := by
    unfold executeDownload
    simp only
    cases UnixPath.parent (localPath localRoot operation.path) <;> rfl
  unfold executeOne
  rw [hdownload]
  simp only [hexec]
  rw [written, KeyedLog.plain_apply_set]

theorem foldl_executeOne_saving : ∀ (taken : List SyncOperation) (files : LocalFiles) (n : Nat),
    (∀ operation ∈ taken, operation.operationType = .download) →
      taken.foldl (executeOne (saving cwd content) localRoot) (files, n) =
        ((Cell.plain Bytes).replay files (taken.map (written cwd content localRoot)), n + taken.length)
  | [], _, _, _ => rfl
  | operation :: taken, files, n, h => by
    rw [List.foldl_cons, executeOne_saving cwd content localRoot files n (h operation List.mem_cons_self),
      foldl_executeOne_saving taken _ (n + 1) fun o ho => h o (List.mem_cons_of_mem _ ho), List.map_cons,
      Cell.replay_cons, List.length_cons]
    congr 1
    omega

/-- With every download succeeding and no limit, all queued downloads are executed, in some order. -/
theorem executeOperations_saving (H : OperationHeap) {queue : H.Heap} {operations : List SyncOperation}
    (files : LocalFiles) (hqueue : SyncQueue.contents H queue = operations)
    (hdownloads : ∀ operation ∈ operations, operation.operationType = .download)
    (hlen : operations.length < usizeMax) :
    ∃ (taken : List SyncOperation) (queue' : H.Heap), taken.Perm operations ∧
      executeOperations (saving cwd content) localRoot H none queue files =
        (.ok operations.length, queue',
          (Cell.plain Bytes).replay files (taken.map (written cwd content localRoot))) := by
  obtain ⟨taken, queue', hrun, hsplit, hstop⟩ := executeLoop_spec (saving cwd content) localRoot H usizeMax
    (SyncQueue.len H queue + 1) queue (files, 0) (Nat.lt_succ_self _)
  -- every queued operation is a download, so each taken one is counted
  have hmem : ∀ operation ∈ taken, operation.operationType = .download := by
    intro operation ho
    refine hdownloads operation (Multiset.mem_coe.1 ?_)
    rw [← hqueue, hsplit]
    exact Multiset.mem_add.2 (.inl (Multiset.mem_coe.2 ho))
  rw [foldl_executeOne_saving cwd content localRoot taken files 0 hmem, Nat.zero_add] at hrun hstop
  have hempty : SyncQueue.contents H queue' = 0 := by
    rcases hstop with h | h
    · exact h
    · -- the limit is above the number of operations
      have hcard := congrArg Multiset.card hsplit
      rw [hqueue, Multiset.card_add, Multiset.coe_card, Multiset.coe_card] at hcard
      simp only at h
      omega
  have hperm : taken.Perm operations := by
    rw [hqueue, hempty, add_zero] at hsplit
    exact (Multiset.coe_eq_coe.1 hsplit).symm
  refine ⟨taken, queue', hperm, ?_⟩
  rw [← hperm.length_eq]
  exact hrun

end

/-- A listing of Drive files with different ids is queued on an empty queue and executed without
limit, every download succeeding: all are executed, and whatever the contents are, every file has
its own content under the local root, if and only if no two listed files name the same place and
every place is inside the root. -/
theorem execute_keeps_contents_iff (H : OperationHeap) (provider : Provider) (stamp : Stamp) (accountId : AccountId)
    (cwd : List UnixPath.Text) (localRoot : UnixPath.Text) (before : LocalFiles) (queue₀ : H.Heap)
    {files : List GDrive.DriveFile} {changes : ChangeList} (hempty : SyncQueue.contents H queue₀ = 0)
    (hids : (files.map GDrive.DriveFile.id).Nodup) (hlen : files.length < usizeMax)
    (hlist : provider.listFolder CloudPath.root = GDrive.listFolder CloudPath.root (.ok (some files)))
    (hchanges : provider.getChanges none = .ok changes) :
    (∀ content : FileId → Bytes, ∃ queued queue queue' after,
        initialSync H provider stamp accountId CloudPath.root queue₀ = (.ok queued, queue) ∧
        executeOperations (saving cwd content) localRoot H none queue before = (.ok queued, queue', after) ∧
        ∀ item ∈ GDrive.cloudItems files, item.isFolder = false →
          UnixPath.Inside cwd localRoot (localPath localRoot item.path) ∧
            after (place cwd localRoot item.path) = some (content item.id)) ↔
      (∀ a ∈ GDrive.cloudItems files, ∀ b ∈ GDrive.cloudItems files, a.isFolder = false → b.isFolder = false →
          place cwd localRoot a.path = place cwd localRoot b.path → a = b) ∧
        ∀ item ∈ GDrive.cloudItems files, item.isFolder = false →
          UnixPath.Inside cwd localRoot (localPath localRoot item.path) := by
  have hlist : provider.listFolder CloudPath.root = .ok (GDrive.cloudItems files) := hlist
  obtain ⟨queue, hinit, hcontents⟩ :=
    initialSync_ok H queue₀ hlist hchanges
  rw [hempty, add_zero] at hcontents
  have hshort : (queuedOperations stamp accountId 0 (GDrive.cloudItems files)).length < usizeMax :=
    lt_of_le_of_lt ((length_queuedOperations _ _).trans (List.length_filterMap_le _ _)) hlen
  have hinj := List.inj_on_of_nodup_map (GDrive.cloudItems_nodup hids)
  constructor
  · intro hkept
    refine ⟨fun a ha b hb hfa hfb hplace => ?_, fun item hitem hfile => ?_⟩
    · -- contents that tell `a` from every other file
      obtain ⟨_, _, _, after, -, -, hall⟩ := hkept fun id => if id = a.id then [0] else [1]
      have hab := (hall a ha hfa).2.symm.trans ((congrArg after hplace).trans (hall b hb hfb).2)
      by_contra hne
      rw [if_pos rfl, if_neg fun hid => hne (hinj ha hb hid.symm)] at hab
      cases hab
    · obtain ⟨_, _, _, _, -, -, hall⟩ := hkept fun _ => []
      exact (hall item hitem hfile).1
  · rintro ⟨hdistinct, hinside⟩ content
    obtain ⟨taken, queue', hperm, hrun⟩ := executeOperations_saving cwd content localRoot H before hcontents
      (fun operation ho => (mem_queuedOperations ho).1) hshort
    refine ⟨_, queue, queue', _, hinit, hrun, fun item hitem hfile => ⟨hinside item hitem hfile, ?_⟩⟩
    obtain ⟨operation, ho, hid, hpath⟩ := exists_queuedOperation stamp accountId hfile (n := 0) hitem
    rw [← hid, ← hpath]
    refine KeyedLog.replay_plain_sets (fun o : SyncOperation => place cwd localRoot o.path) (fun o => content o.fileId)
      before (fun o₁ ho₁ o₂ ho₂ hplace => ?_) (hperm.mem_iff.2 ho)
    obtain ⟨-, a, ha, hfa, hida, hpa⟩ := mem_queuedOperations (hperm.mem_iff.1 ho₁)
    obtain ⟨-, b, hb, hfb, hidb, hpb⟩ := mem_queuedOperations (hperm.mem_iff.1 ho₂)
    rw [hpa, hpb] at hplace
    rw [hida, hidb, hdistinct a ha b hb hfa hfb hplace]

def sampleFile (id name : Str) : GDrive.DriveFile := ⟨some id, some name, none, none, none, some DateTime.epoch, none⟩

/-- A provider whose root folder holds the files. -/
def sampleProvider (files : List GDrive.DriveFile) : Provider where
  listFolder path := GDrive.listFolder path (.ok (some files))
  getChanges _ := .ok ⟨[], ['0'], false⟩

def sampleStamp (n : Nat) : OperationId × DateTime := (⟨List.replicate n '1'⟩, DateTime.epoch)

/-- Every file contains its id. -/
def sampleContent (fileId : FileId) : Bytes := fileId.val.map fun c => UInt8.ofNat c.toNat

theorem execute_keeps_contents_sample : ∃ queued queue queue' after,
    initialSync (PriorityHeap.sorted _) (sampleProvider [sampleFile ['1'] ['n'], sampleFile ['2'] ['m']]) sampleStamp
        ⟨['a']⟩ CloudPath.root (SyncQueue.new _) = (.ok queued, queue) ∧
      executeOperations (saving [] sampleContent) ['/', 'r'] (PriorityHeap.sorted _) none queue (fun _ => none) =
        (.ok queued, queue', after) ∧
      ∀ item ∈ GDrive.cloudItems [sampleFile ['1'] ['n'], sampleFile ['2'] ['m']], item.isFolder = false →
        UnixPath.Inside [] ['/', 'r'] (localPath ['/', 'r'] item.path) ∧
          after (place [] ['/', 'r'] item.path) = some (sampleContent item.id) :=
  (execute_keeps_contents_iff (PriorityHeap.sorted _)
    (sampleProvider [sampleFile ['1'] ['n'], sampleFile ['2'] ['m']]) sampleStamp ⟨['a']⟩ [] ['/', 'r'] (fun _ => none)
    (SyncQueue.new _) rfl (by decide) (by decide) rfl rfl).2 (by decide) sampleContent

/-- Two files of one name: only one content is left. -/
theorem execute_overwrites_same_name :
    ([sampleFile ['1'] ['n'], sampleFile ['2'] ['n']].map GDrive.DriveFile.id).Nodup ∧
      ¬ ∀ content : FileId → Bytes, ∃ queued queue queue' after,
        initialSync (PriorityHeap.sorted _) (sampleProvider [sampleFile ['1'] ['n'], sampleFile ['2'] ['n']])
            sampleStamp ⟨['a']⟩ CloudPath.root (SyncQueue.new _) = (.ok queued, queue) ∧
          executeOperations (saving [] content) ['/', 'r'] (PriorityHeap.sorted _) none queue (fun _ => none) =
            (.ok queued, queue', after) ∧
          ∀ item ∈ GDrive.cloudItems [sampleFile ['1'] ['n'], sampleFile ['2'] ['n']], item.isFolder = false →
            UnixPath.Inside [] ['/', 'r'] (localPath ['/', 'r'] item.path) ∧
              after (place [] ['/', 'r'] item.path) = some (content item.id) := by
  refine ⟨by decide, fun h => ?_⟩
  obtain ⟨_, _, _, after, -, -, hall⟩ := h fun id => if id = ⟨['1']⟩ then [1] else [2]
  have h₁ : after [['r'], ['n']] = some [1] := (hall _ (List.mem_cons_self) rfl).2
  have h₂ : after [['r'], ['n']] = some [2] := (hall _ (List.mem_cons_of_mem _ List.mem_cons_self) rfl).2
  rw [h₁] at h₂
  cases h₂

end SyncEngine

end CloudSync
