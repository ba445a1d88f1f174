/-
The limit of `execute_operations`. The loop counts the downloads that succeed, and pops as long as the count is below
the limit: an operation that is skipped or fails is taken out of the queue without being counted.
-/
import CloudSync.Sync.Engine

namespace CloudSync.SyncEngine

/-! ## Attempts -/

section

variable {σ : Type} (ops : LocalOps σ) (localRoot : UnixPath.Text)

/-- The results of the downloads that some operations attempt, one after the other. -/
def attempts : List SyncOperation → σ → List (Except EngineError Unit)
  | [], _ => []
  | operation :: operations, s =>
    if operation.operationType = .download then
      (executeDownload ops localRoot operation s).1 ::
        attempts operations (executeDownload ops localRoot operation s).2
    else attempts operations s

theorem length_attempts : ∀ (operations : List SyncOperation) (s : σ),
    (attempts ops localRoot operations s).length ≤ operations.length
  | [], _ => Nat.le_refl 0
  | operation :: operations, s => by
    unfold attempts
    split
    · exact Nat.succ_le_succ (length_attempts operations _)
    · exact Nat.le_succ_of_le (length_attempts operations s)

/-- The successful downloads are counted. -/
theorem foldl_executeOne_count : ∀ (operations : List SyncOperation) (s : σ) (n : Nat),
    (operations.foldl (executeOne ops localRoot) (s, n)).2 =
      n + (attempts ops localRoot operations s).countP Except.isOk
  | [], _, _ => rfl
  | operation :: operations, s, n => by
    rw [List.foldl_cons]
    unfold executeOne attempts
    cases operation.operationType with
    | download =>
      rw [if_pos rfl]
      simp only
      rcases executeDownload ops localRoot operation s with ⟨e | ⟨⟩, s'⟩
      · rw [List.countP_cons_of_neg Bool.false_ne_true]
        exact foldl_executeOne_count operations s' n
      · rw [List.countP_cons_of_pos rfl, Nat.add_comm (List.countP _ _), ← Nat.add_assoc]
        exact foldl_executeOne_count operations s' (n + 1)
    | upload => exact foldl_executeOne_count operations s n
    | delete => exact foldl_executeOne_count operations s n

end

/-! ## The operations taken -/

variable {σ : Type} {ops : LocalOps σ} {localRoot : UnixPath.Text} {H : OperationHeap}

theorem popAll_take (H : OperationHeap) : ∀ {n m : Nat} (queue : H.Heap), n ≤ m →
    (SyncQueue.popAll H m queue).take n = SyncQueue.popAll H n queue
  | 0, _, _, _ => rfl
  | n + 1, m + 1, queue, h => by
    unfold SyncQueue.popAll
    rcases SyncQueue.pop H queue with ⟨e | operation, queue'⟩
    · rfl
    · exact congrArg (operation :: ·) (popAll_take H queue' (Nat.le_of_succ_le_succ h))

/-- As many attempts as operations, all successful. -/
theorem attempts_all_ok {operations : List SyncOperation} {s : σ} {n : Nat} (hlen : operations.length ≤ n)
    (hcount : n ≤ (attempts ops localRoot operations s).countP Except.isOk) :
    operations.length = n ∧ attempts ops localRoot operations s = List.replicate n (.ok ()) := by
  have hattempts := length_attempts ops localRoot operations s
  have hle : (attempts ops localRoot operations s).countP Except.isOk ≤ (attempts ops localRoot operations s).length :=
    List.countP_le_length
  have hall : (attempts ops localRoot operations s).countP Except.isOk =
      (attempts ops localRoot operations s).length := by omega
  refine ⟨by omega, List.eq_replicate_iff.2 ⟨by omega, fun result hresult => ?_⟩⟩
  have hok := List.countP_eq_length.1 hall result hresult
  rcases result with e | ⟨⟩
  · cases hok
  · rfl

/-- Over any queue and any downloads: with the limit `n` the operations taken out are the next ones of the queue, the
others stay there, and the successful downloads are counted. At most `n` are taken out, and at most `n` downloads
attempted, exactly when the queue has at most `n`, or the next `n` are downloads that all succeed. -/
theorem execute_limit_iff (ops : LocalOps σ) (localRoot : UnixPath.Text) (H : OperationHeap) (n : Nat)
    (queue : H.Heap) (s : σ) :
    ∃ (taken : List SyncOperation) (queue' : H.Heap) (s' : σ),
      executeOperations ops localRoot H (some n) queue s =
        (.ok ((attempts ops localRoot taken s).countP Except.isOk), queue', s') ∧
      taken = SyncQueue.popAll H taken.length queue ∧
      SyncQueue.contents H queue = taken + SyncQueue.contents H queue' ∧
      ((taken.length ≤ n ∧ (attempts ops localRoot taken s).length ≤ n) ↔
        SyncQueue.len H queue ≤ n ∨
          attempts ops localRoot (SyncQueue.popAll H n queue) s = List.replicate n (.ok ())) := by
  obtain ⟨taken, queue', hrun, hsplit, hpops, hbelow, hstop⟩ :=
    executeLoop_popped ops localRoot H n (SyncQueue.len H queue + 1) queue (s, 0) (Nat.lt_succ_self _)
  rw [foldl_executeOne_count, Nat.zero_add] at hrun hstop
  have hlen : SyncQueue.len H queue = taken.length + SyncQueue.len H queue' := by
    rw [← SyncQueue.card_contents, ← SyncQueue.card_contents, hsplit, Multiset.card_add, Multiset.coe_card]
  refine ⟨taken, queue', _, hrun, hpops, hsplit, ?_, ?_⟩
  · rintro ⟨htaken, -⟩
    rcases hstop with hempty | hlimit
    · left
      rw [hlen, ← SyncQueue.card_contents, hempty, Multiset.card_zero]
      omega
    · right
      obtain ⟨hn, hok⟩ := attempts_all_ok htaken hlimit
      rw [← hn, ← hpops, hok, hn]
  · intro h
    have htaken : taken.length ≤ n := by
      rcases h with hshort | hok
      · omega
      · by_contra hmore
        -- after the first `n` operations the limit is reached
        have hfirst : taken.take n ++ [taken[n]] <+: taken := by
          rw [← List.take_succ_eq_append_getElem]
          exact List.take_prefix (n + 1) taken
        have hcount := hbelow _ _ hfirst
        have hcounted : (List.replicate n (.ok () : Except EngineError Unit)).countP Except.isOk = n := by
          rw [List.countP_replicate]
          rfl
        rw [foldl_executeOne_count, hpops, popAll_take H queue (by omega), hok, hcounted] at hcount
        omega
    exact ⟨htaken, (length_attempts ops localRoot taken s).trans htaken⟩

/-- A provider whose downloads fail; the state is the number of attempts. -/
def refusing : LocalOps Nat where
  createDirAll _ n := (.ok (), n)
  download _ _ n := (.error (.network ['e']), n + 1)

/-- With the limit 1 both downloads of the queue are attempted, and it is left empty. -/
theorem limit_exceeded :
    executeOperations refusing ['/', 'r'] (PriorityHeap.sorted _) (some 1)
      (SyncQueue.pushAll _ [SyncQueue.sampleOperation ['1'], SyncQueue.sampleOperation ['2']]) 0 =
        (.ok 0, SyncQueue.new _, 2) := rfl

end CloudSync.SyncEngine
