/-
The whole life of the daemon: its start, with or without an initial sync, and any refresh ticks. The downloads it
makes are those of the one listing at its start, each once, and no tick makes another: what a failed download has left
on the local disk stays there.
-/
import CloudSync.Sync.Limit
import CloudSync.Sync.Refresh

namespace CloudSync

namespace SyncEngine

open SyncQueue (contents Precedes)

/-! ## Runs of the main loop -/

section

variable {σ : Type} (ops : LocalOps σ) (localRoot : UnixPath.Text) (H : OperationHeap) (accountId : AccountId)

/-- `main` up to its refresh loop. -/
def launch (skipInitialSync : Bool) (t : Tick) (disk : σ) : Daemon H σ :=
  if !skipInitialSync then startUp ops localRoot H accountId t disk else ⟨SyncQueue.new H, disk⟩

/-- The daemon after some ticks of its refresh loop. -/
def life (rounds : Nat) (skipInitialSync : Bool) (first : Tick) (disk : σ) (ticks : List Tick) : Daemon H σ :=
  ticks.foldl (tick ops localRoot accountId rounds) (launch ops localRoot H accountId skipInitialSync first disk)

/-- The items that are listed at the start. -/
def Tick.listed (t : Tick) (skipInitialSync : Bool) : List CloudItem :=
  if skipInitialSync then [] else
    match GDrive.listFolder CloudPath.root t.api.filesList with
    | .ok items => items
    | .error _ => []

variable {H}

/-- Without a limit, and with fewer operations than it could count, the execution takes all operations out of the
queue, the preceding ones first. -/
theorem executeOperations_all (queue : H.Heap) (s : σ) (hlen : SyncQueue.len H queue < usizeMax) :
    ∃ (n : Nat) (queue' : H.Heap) (taken : List SyncOperation),
      executeOperations ops localRoot H none queue s =
        (.ok n, queue', (taken.foldl (executeOne ops localRoot) (s, 0)).1) ∧
      contents H queue' = 0 ∧ (taken : Multiset SyncOperation) = contents H queue ∧
        taken.Pairwise fun a b => ¬ Precedes b a := by
  obtain ⟨taken, queue', hrun, hsplit, hpops, -, hstop⟩ := executeLoop_popped ops localRoot H usizeMax
    (SyncQueue.len H queue + 1) queue (s, 0) (Nat.lt_succ_self _)
  have hcard := congrArg Multiset.card hsplit
  rw [Multiset.card_add, Multiset.coe_card, SyncQueue.card_contents] at hcard
  have hempty : contents H queue' = 0 := by
    rcases hstop with h | h
    · exact h
    · -- no more operations are counted than were taken
      rw [foldl_executeOne_count, Nat.zero_add] at h
      have hattempts := length_attempts ops localRoot taken s
      have hcount : (attempts ops localRoot taken s).countP Except.isOk ≤ (attempts ops localRoot taken s).length :=
        List.countP_le_length
      omega
  rw [hempty, add_zero] at hsplit
  refine ⟨_, queue', taken, hrun, hempty, hsplit.symm, ?_⟩
  have hdrained : taken = SyncQueue.drained H queue := by
    rw [hempty, Multiset.card_zero, Nat.add_zero] at hcard
    rw [hpops, SyncQueue.drained, hcard]
  rw [hdrained]
  exact (SyncQueue.drained_spec H queue).2

/-- A queue that is empty stays so, and nothing is executed. -/
theorem executeOperations_empty {queue : H.Heap} (s : σ) (hempty : contents H queue = 0) :
    ∃ (n : Nat) (queue' : H.Heap), executeOperations ops localRoot H none queue s = (.ok n, queue', s) ∧
      contents H queue' = 0 := by
  have hlen : SyncQueue.len H queue = 0 := by rw [← SyncQueue.card_contents, hempty, Multiset.card_zero]
  obtain ⟨n, queue', taken, hrun, hempty', htaken, -⟩ :=
    executeOperations_all ops localRoot queue s (by rw [hlen]; decide)
  rw [hempty, Multiset.coe_eq_zero] at htaken
  subst htaken
  exact ⟨n, queue', hrun, hempty'⟩

/-- A tick on an empty queue leaves the queue empty and the disk as it is. -/
theorem tick_idle (rounds : Nat) {s : Daemon H σ} (hempty : contents H s.queue = 0) (t : Tick) :
    contents H (tick ops localRoot accountId rounds s t).queue = 0 ∧
      (tick ops localRoot accountId rounds s t).disk = s.disk := by
  obtain ⟨n, queue', hrun, hempty'⟩ := executeOperations_empty ops localRoot s.disk
    ((contents_refreshed H accountId rounds s.queue t).trans hempty)
  unfold tick
  rw [hrun]
  exact ⟨hempty', rfl⟩

variable (H) in
/-- What the start of the daemon queues. -/
theorem contents_initialSync (t : Tick) :
    contents H (initialSync H (driveProvider t.api t.now) t.stamp accountId CloudPath.root (SyncQueue.new H)).2 =
      queuedOperations t.stamp accountId 0 (t.listed false) := by
  have hprovider : (driveProvider t.api t.now).listFolder CloudPath.root =
      GDrive.listFolder CloudPath.root t.api.filesList := rfl
  unfold initialSync Tick.listed
  rw [hprovider]
  cases GDrive.listFolder CloudPath.root t.api.filesList with
  | error e => exact SyncQueue.Audited.contents_new
  | ok items =>
    simp only [foldl_queue, Bool.false_eq_true, if_false]
    have hcontents : contents H ((queuedOperations t.stamp accountId 0 items).foldl (SyncQueue.push H)
        (SyncQueue.new H)) = queuedOperations t.stamp accountId 0 items := by
      rw [SyncQueue.contents_foldl_push, SyncQueue.Audited.contents_new, add_zero]
    -- the operations stay queued when the provider fails to give its position
    cases (driveProvider t.api t.now).getChanges none with
    | error e => exact hcontents
    | ok changes => exact hcontents

variable (H) in
/-- The start takes the operations of the listing out of the queue, and leaves it empty. -/
theorem launch_spec (skipInitialSync : Bool) (t : Tick) (disk : σ) (hlen : (t.listed false).length < usizeMax) :
    ∃ taken : List SyncOperation, taken.Perm (queuedOperations t.stamp accountId 0 (t.listed skipInitialSync)) ∧
      (taken.Pairwise fun a b => ¬ Precedes b a) ∧
      contents H (launch ops localRoot H accountId skipInitialSync t disk).queue = 0 ∧
      (launch ops localRoot H accountId skipInitialSync t disk).disk =
        (taken.foldl (executeOne ops localRoot) (disk, 0)).1 := by
  cases skipInitialSync with
  | true => exact ⟨[], .nil, .nil, SyncQueue.Audited.contents_new, rfl⟩
  | false =>
    have hcontents := contents_initialSync H accountId t
    obtain ⟨n, queue', taken, hrun, hempty, htaken, horder⟩ := executeOperations_all ops localRoot
      (initialSync H (driveProvider t.api t.now) t.stamp accountId CloudPath.root (SyncQueue.new H)).2 disk (by
        rw [← SyncQueue.card_contents, hcontents, Multiset.coe_card]
        exact lt_of_le_of_lt (length_queuedOperations _ _) hlen)
    refine ⟨taken, Multiset.coe_eq_coe.1 (htaken.trans hcontents), horder, ?_, ?_⟩
    · show contents H (startUp ops localRoot H accountId t disk).queue = 0
      unfold startUp
      simp only [hrun]
      exact hempty
    · show (startUp ops localRoot H accountId t disk).disk = _
      unfold startUp
      simp only [hrun]

/-- After any ticks, the queue and the disk are as the start has left them. -/
theorem life_eq_launch (rounds : Nat) (skipInitialSync : Bool) (first : Tick) (disk : σ)
    (hempty : contents H (launch ops localRoot H accountId skipInitialSync first disk).queue = 0) (ticks : List Tick) :
    contents H (life ops localRoot H accountId rounds skipInitialSync first disk ticks).queue = 0 ∧
      (life ops localRoot H accountId rounds skipInitialSync first disk ticks).disk =
        (launch ops localRoot H accountId skipInitialSync first disk).disk := by
  induction ticks using List.reverseRecOn with
  | nil => exact ⟨hempty, rfl⟩
  | append_singleton ticks t ih =>
    unfold life at ih ⊢
    rw [List.foldl_append, List.foldl_cons, List.foldl_nil]
    obtain ⟨hqueue, hdisk⟩ := tick_idle ops localRoot accountId rounds ih.1 t
    exact ⟨hqueue, hdisk.trans ih.2⟩

end

/-- In the whole life of the daemon, whatever its downloads and its ticks answer: every file of the listing at the
start is tried once, the older operations first, and between the ticks the queue is empty and the disk as these tries
have left it. So nothing that failed is tried again. -/
theorem life_downloads {σ : Type} (ops : LocalOps σ) (localRoot : UnixPath.Text) (H : OperationHeap)
    (accountId : AccountId) (rounds : Nat) (skipInitialSync : Bool) (first : Tick) (disk : σ)
    (hlen : (first.listed false).length < usizeMax) :
    ∃ taken : List SyncOperation,
      taken.Perm (queuedOperations first.stamp accountId 0 (first.listed skipInitialSync)) ∧
      (taken.Pairwise fun a b => ¬ Precedes b a) ∧
      ∀ ticks : List Tick,
        contents H (life ops localRoot H accountId rounds skipInitialSync first disk ticks).queue = 0 ∧
        (life ops localRoot H accountId rounds skipInitialSync first disk ticks).disk =
          (taken.foldl (executeOne ops localRoot) (disk, 0)).1 := by
  obtain ⟨taken, hperm, horder, hempty, hdisk⟩ :=
    launch_spec ops localRoot H accountId skipInitialSync first disk hlen
  refine ⟨taken, hperm, horder, fun ticks => ?_⟩
  obtain ⟨hqueue, hlife⟩ := life_eq_launch ops localRoot accountId rounds skipInitialSync first disk hempty ticks
  exact ⟨hqueue, hlife.trans hdisk⟩

/-! ## The local disk -/

/-- A file with what a download leaves of it; nothing changes when it was not created. -/
def stored (files : LocalFiles) (place : List UnixPath.Text) : Option Bytes → LocalFiles
  | none => files
  | some bytes => Function.update files place (some bytes)

/-- The local disk and Drive: what the n-th call answers is arbitrary. -/
def driveOps (cwd : List UnixPath.Text) (parseUrl : Str → Option Str) (mkdir : Nat → UnixPath.Text → Except Str Unit)
    (transfer : Nat → FileId → GDrive.Transfer) : LocalOps (LocalFiles × Nat) where
  createDirAll path s := (mkdir s.2 path, (s.1, s.2 + 1))
  download id path s :=
    let (result, left) := GDrive.download parseUrl id (transfer s.2 id)
    (result, (stored s.1 (UnixPath.resolve cwd path) left, s.2 + 1))

section

variable (cwd : List UnixPath.Text) (parseUrl : Str → Option Str) (mkdir : Nat → UnixPath.Text → Except Str Unit)
  (transfer : Nat → FileId → GDrive.Transfer) (localRoot : UnixPath.Text) {content : FileId → Bytes}

/-- A download does not reach its file, as the directory for it is refused, or leaves at its place what its transfer
wrote. -/
theorem executeOne_drive {operation : SyncOperation} (hdownload : operation.operationType = .download)
    (s : LocalFiles × Nat) (k : Nat) :
    (∃ n dir e, UnixPath.parent (localPath localRoot operation.path) = some dir ∧ mkdir n dir = .error e ∧
      (executeOne (driveOps cwd parseUrl mkdir transfer) localRoot (s, k) operation).1.1 = s.1) ∨
    ∃ n, (executeOne (driveOps cwd parseUrl mkdir transfer) localRoot (s, k) operation).1.1 =
      stored s.1 (place cwd localRoot operation.path)
        (GDrive.download parseUrl operation.fileId (transfer n operation.fileId)).2 := by
  have hone : (executeOne (driveOps cwd parseUrl mkdir transfer) localRoot (s, k) operation).1 =
      (executeDownload (driveOps cwd parseUrl mkdir transfer) localRoot operation s).2 := by
    unfold executeOne
    rw [hdownload]
    simp only
    rcases executeDownload (driveOps cwd parseUrl mkdir transfer) localRoot operation s with ⟨e | ⟨⟩, s'⟩ <;> rfl
  rw [hone]
  unfold executeDownload driveOps place
  cases hparent : UnixPath.parent (localPath localRoot operation.path) with
  | none =>
    refine .inr ⟨s.2, ?_⟩
    simp only [hparent]
    cases (GDrive.download parseUrl operation.fileId (transfer s.2 operation.fileId)).1 <;> rfl
  | some dir =>
    cases hdir : mkdir s.2 dir with
    | error e => exact .inl ⟨s.2, dir, e, rfl, hdir, by simp only [hparent, hdir]⟩
    | ok _ =>
      refine .inr ⟨s.2 + 1, ?_⟩
      simp only [hparent, hdir]
      cases (GDrive.download parseUrl operation.fileId (transfer (s.2 + 1) operation.fileId)).1 <;> rfl

theorem stored_elsewhere (files : LocalFiles) {place p : List UnixPath.Text} (h : p ≠ place) (left : Option Bytes) :
    stored files place left p = files p := by
  cases left with
  | none => rfl
  | some bytes => exact Function.update_of_ne h _ _

/-- Whatever fails, a place holds what it held before, or a part from the start of a file that was downloaded to
it. -/
theorem foldl_executeOne_parts (hcarries : ∀ n id, GDrive.Carries (transfer n id).frames (content id))
    (taken : List SyncOperation) (hdownloads : ∀ operation ∈ taken, operation.operationType = .download)
    (s : LocalFiles × Nat) (p : List UnixPath.Text) :
    (taken.foldl (executeOne (driveOps cwd parseUrl mkdir transfer) localRoot) (s, 0)).1.1 p = s.1 p ∨
      ∃ operation ∈ taken, place cwd localRoot operation.path = p ∧ ∃ bytes,
        (taken.foldl (executeOne (driveOps cwd parseUrl mkdir transfer) localRoot) (s, 0)).1.1 p = some bytes ∧
          bytes <+: content operation.fileId := by
  induction taken using List.reverseRecOn with
  | nil => exact .inl rfl
  | append_singleton taken operation ih =>
    rw [List.foldl_append, List.foldl_cons, List.foldl_nil]
    have ih := ih fun o ho => hdownloads o (List.mem_append_left _ ho)
    generalize taken.foldl (executeOne (driveOps cwd parseUrl mkdir transfer) localRoot) (s, 0) = acc at ih ⊢
    obtain ⟨s', k⟩ := acc
    -- what was there before the last operation
    have hkeep : ∀ x, x = s'.1 p → x = s.1 p ∨ ∃ o ∈ taken ++ [operation], place cwd localRoot o.path = p ∧
        ∃ bytes, x = some bytes ∧ bytes <+: content o.fileId := by
      rintro x rfl
      rcases ih with h | ⟨o, ho, hplace, hbytes⟩
      · exact .inl h
      · exact .inr ⟨o, List.mem_append_left _ ho, hplace, hbytes⟩
    have hmem : operation ∈ taken ++ [operation] := List.mem_append_right _ (List.mem_singleton_self _)
    rcases executeOne_drive cwd parseUrl mkdir transfer localRoot (hdownloads operation hmem) s' k with
      ⟨-, -, -, -, -, hsame⟩ | ⟨n, hstored⟩
    · exact hkeep _ (congrFun hsame p)
    · by_cases hp : place cwd localRoot operation.path = p
      · rcases hleft : (GDrive.download parseUrl operation.fileId (transfer n operation.fileId)).2 with _ | bytes
        · rw [hleft] at hstored
          exact hkeep _ (congrFun hstored p)
        · rw [hleft] at hstored
          refine .inr ⟨operation, hmem, hp, bytes, ?_, ?_⟩
          · rw [hstored, ← hp]
            exact Function.update_self _ _ _
          · exact (GDrive.downloadAttempt parseUrl operation.fileId _ (hcarries n operation.fileId)).part bytes hleft
      · exact hkeep _ ((congrFun hstored p).trans (stored_elsewhere s'.1 (Ne.symm hp) _))

/-- When the directories of a place are created and the transfers to it end well, it holds a whole file. -/
theorem foldl_executeOne_complete (hcarries : ∀ n id, GDrive.Carries (transfer n id).frames (content id))
    (taken : List SyncOperation) (hdownloads : ∀ operation ∈ taken, operation.operationType = .download)
    (s : LocalFiles × Nat) (p : List UnixPath.Text)
    (hmkdir : ∀ operation ∈ taken, place cwd localRoot operation.path = p →
      ∀ dir, UnixPath.parent (localPath localRoot operation.path) = some dir → ∀ n, mkdir n dir = .ok ())
    (hends : ∀ operation ∈ taken, place cwd localRoot operation.path = p →
      ∀ n, (GDrive.download parseUrl operation.fileId (transfer n operation.fileId)).1 = .ok ())
    (hsome : ∃ operation ∈ taken, place cwd localRoot operation.path = p) :
    ∃ operation ∈ taken, place cwd localRoot operation.path = p ∧
      (taken.foldl (executeOne (driveOps cwd parseUrl mkdir transfer) localRoot) (s, 0)).1.1 p =
        some (content operation.fileId) := by
  induction taken using List.reverseRecOn with
  | nil =>
    obtain ⟨_, hmem, -⟩ := hsome
    cases hmem
  | append_singleton taken operation ih =>
    rw [List.foldl_append, List.foldl_cons, List.foldl_nil]
    have hmem : operation ∈ taken ++ [operation] := List.mem_append_right _ (List.mem_singleton_self _)
    have ih := ih (fun o ho => hdownloads o (List.mem_append_left _ ho))
      (fun o ho => hmkdir o (List.mem_append_left _ ho)) fun o ho => hends o (List.mem_append_left _ ho)
    -- an operation elsewhere leaves what the ones before it have made of the place
    have helsewhere : place cwd localRoot operation.path ≠ p → ∃ o ∈ taken, place cwd localRoot o.path = p := by
      intro hp
      obtain ⟨o, ho, hplace⟩ := hsome
      rcases List.mem_append.1 ho with ho | ho
      · exact ⟨o, ho, hplace⟩
      · rw [List.mem_singleton.1 ho] at hplace
        exact absurd hplace hp
    generalize taken.foldl (executeOne (driveOps cwd parseUrl mkdir transfer) localRoot) (s, 0) = acc at ih ⊢
    obtain ⟨s', k⟩ := acc
    rcases executeOne_drive cwd parseUrl mkdir transfer localRoot (hdownloads operation hmem) s' k with
      ⟨n, dir, e, hparent, herror, hsame⟩ | ⟨n, hstored⟩
    · by_cases hp : place cwd localRoot operation.path = p
      · rw [hmkdir operation hmem hp dir hparent n] at herror
        cases herror
      · obtain ⟨o, ho, hplace, hwhole⟩ := ih (helsewhere hp)
        exact ⟨o, List.mem_append_left _ ho, hplace, (congrFun hsame p).trans hwhole⟩
    · by_cases hp : place cwd localRoot operation.path = p
      · refine ⟨operation, hmem, hp, ?_⟩
        have hleft := (GDrive.downloadAttempt parseUrl operation.fileId _ (hcarries n operation.fileId)).complete
          (hends operation hmem hp n)
        rw [show (GDrive.download parseUrl operation.fileId (transfer n operation.fileId)).2 =
          some (content operation.fileId) from hleft] at hstored
        rw [hstored, ← hp]
        exact Function.update_self _ _ _
      · obtain ⟨o, ho, hplace, hwhole⟩ := ih (helsewhere hp)
        refine ⟨o, List.mem_append_left _ ho, hplace, ?_⟩
        rw [hstored, stored_elsewhere s'.1 (Ne.symm hp)]
        exact hwhole

end

/-- The local disk in the whole life of the daemon, with downloads that may stop at any frame: it changes no more once
the daemon has started. A place holds what was there before or a part from the start of a listed file, and a place of
listed files whose directories are created and whose transfers end well holds one of them whole, whatever is refused
elsewhere. -/
theorem life_disk (cwd : List UnixPath.Text) (parseUrl : Str → Option Str)
    (mkdir : Nat → UnixPath.Text → Except Str Unit) (transfer : Nat → FileId → GDrive.Transfer)
    (localRoot : UnixPath.Text) (H : OperationHeap) (accountId : AccountId) (rounds : Nat) (skipInitialSync : Bool)
    (first : Tick) (before : LocalFiles) (content : FileId → Bytes)
    (hcarries : ∀ n id, GDrive.Carries (transfer n id).frames (content id))
    (hlen : (first.listed false).length < usizeMax) :
    ∃ after : LocalFiles,
      (∀ ticks : List Tick, (life (driveOps cwd parseUrl mkdir transfer) localRoot H accountId rounds skipInitialSync
        first (before, 0) ticks).disk.1 = after) ∧
      (∀ p, after p = before p ∨ ∃ item ∈ first.listed skipInitialSync, item.isFolder = false ∧
        place cwd localRoot item.path = p ∧ ∃ bytes, after p = some bytes ∧ bytes <+: content item.id) ∧
      ∀ p, (∃ item ∈ first.listed skipInitialSync, item.isFolder = false ∧ place cwd localRoot item.path = p) →
        (∀ item ∈ first.listed skipInitialSync, item.isFolder = false → place cwd localRoot item.path = p →
          ∀ dir, UnixPath.parent (localPath localRoot item.path) = some dir → ∀ n, mkdir n dir = .ok ()) →
        (∀ item ∈ first.listed skipInitialSync, item.isFolder = false → place cwd localRoot item.path = p →
          ∀ n, (GDrive.download parseUrl item.id (transfer n item.id)).1 = .ok ()) →
        ∃ item ∈ first.listed skipInitialSync, item.isFolder = false ∧ place cwd localRoot item.path = p ∧
          after p = some (content item.id) := by
  obtain ⟨taken, hperm, -, hempty, hdisk⟩ := launch_spec (driveOps cwd parseUrl mkdir transfer)
    localRoot H accountId skipInitialSync first (before, 0) hlen
  have hoperation : ∀ operation ∈ taken, operation.operationType = .download ∧
      ∃ item ∈ first.listed skipInitialSync,
        item.isFolder = false ∧ operation.fileId = item.id ∧ operation.path = item.path :=
    fun operation ho => mem_queuedOperations (hperm.mem_iff.1 ho)
  have hdownloads : ∀ operation ∈ taken, operation.operationType = .download := fun o ho => (hoperation o ho).1
  refine ⟨_, fun ticks => congrArg Prod.fst ((life_eq_launch _ localRoot accountId rounds skipInitialSync first
    (before, 0) hempty ticks).2.trans hdisk), fun p => ?_, fun p hlisted hmkdir hends => ?_⟩
  · rcases foldl_executeOne_parts cwd parseUrl mkdir transfer localRoot hcarries taken hdownloads (before, 0) p with
      h | ⟨operation, ho, hplace, bytes, hbytes, hpart⟩
    · exact .inl h
    · obtain ⟨-, item, hitem, hfile, hid, hpath⟩ := hoperation operation ho
      exact .inr ⟨item, hitem, hfile, hpath ▸ hplace, bytes, hbytes, hid ▸ hpart⟩
  · obtain ⟨item, hitem, hfile, hplace⟩ := hlisted
    obtain ⟨operation, ho, -, hpath⟩ := exists_queuedOperation first.stamp accountId hfile (n := 0) hitem
    obtain ⟨operation', ho', hplace', hwhole⟩ :=
      foldl_executeOne_complete cwd parseUrl mkdir transfer localRoot hcarries taken hdownloads (before, 0) p
        (fun o ho hp => by
          obtain ⟨-, item', hitem', hfile', -, hpath'⟩ := hoperation o ho
          rw [hpath'] at hp ⊢
          exact hmkdir item' hitem' hfile' hp)
        (fun o ho hp n => by
          obtain ⟨-, item', hitem', hfile', hid', hpath'⟩ := hoperation o ho
          rw [hid']
          exact hends item' hitem' hfile' (hpath' ▸ hp) n) ⟨operation, hperm.mem_iff.2 ho, hpath ▸ hplace⟩
    obtain ⟨-, item', hitem', hfile', hid', hpath'⟩ := hoperation operation' ho'
    exact ⟨item', hitem', hfile', hpath' ▸ hplace', hid' ▸ hwhole⟩

/-- A start with one file in the root, which the feed never reports. -/
def oneListed : Tick where
  changes := []
  api :=
    { filesList := .ok (some [sampleFile ['f'] ['n']])
      startPageToken := .ok (some ['1'])
      changesList := fun _ => .ok ⟨none, none, some ['1']⟩
      refusesParam := GDrive.setterRefusal }
  now := DateTime.epoch
  stamp := sampleStamp

/-- A transfer of two bytes that breaks off after the first. -/
def broken : GDrive.Transfer := ⟨.ok none, .ok (), .ok (), [.data [1] none, .error ['e']], .ok ()⟩

/-- The file is tried once, and the ticks do not try it again. -/
theorem life_downloads_sample :
    ∃ taken : List SyncOperation, taken.length = 1 ∧ ∀ ticks,
      (life (driveOps [] (fun _ => none) (fun _ _ => .ok ()) fun _ _ => broken) ['/', 'r'] (PriorityHeap.sorted _)
        ⟨['a']⟩ 1 false oneListed (fun _ => none, 0) ticks).disk =
      (taken.foldl (executeOne (driveOps [] (fun _ => none) (fun _ _ => .ok ()) fun _ _ => broken) ['/', 'r'])
        ((fun _ => none, 0), 0)).1 := by
  obtain ⟨taken, hperm, -, hlife⟩ := life_downloads
    (driveOps [] (fun _ => none) (fun _ _ => .ok ()) fun _ _ => broken) ['/', 'r'] (PriorityHeap.sorted _) ⟨['a']⟩ 1
    false oneListed (fun _ => none, 0) (by decide)
  exact ⟨taken, hperm.length_eq, fun ticks => (hlife ticks).2⟩

/-- Of the two bytes no tick leaves more than a part. -/
theorem life_disk_sample :
    ∃ after : LocalFiles,
      (∀ ticks, (life (driveOps [] (fun _ => none) (fun _ _ => .ok ()) fun _ _ => broken) ['/', 'r']
        (PriorityHeap.sorted _) ⟨['a']⟩ 1 false oneListed (fun _ => none, 0) ticks).disk.1 = after) ∧
      after [['r'], ['n']] = some [1] := by
  obtain ⟨after, hafter, -, -⟩ := life_disk [] (fun _ => none) (fun _ _ => .ok ()) (fun _ _ => broken) ['/', 'r']
    (PriorityHeap.sorted _) ⟨['a']⟩ 1 false oneListed (fun _ => none) (fun _ => [1, 2])
    (fun _ _ => ⟨[2], rfl, trivial⟩) (by decide)
  refine ⟨after, hafter, ?_⟩
  rw [← hafter []]
  rfl

end SyncEngine

end CloudSync
