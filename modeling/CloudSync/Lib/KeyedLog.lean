/-
Logs of keyed changes. A log erases keys and sets keys to new values; a cell says how a set acts on
a key that holds nothing (`fresh`) and on one that holds a value (`revise`), where the last set
wins. Replaying a log acts on every key through one `Summary` of the entries for that key, and
summaries are idempotent: a log may be replayed after any of its prefixes without a trace.
-/
import Mathlib.Tactic

namespace KeyedLog

variable {K M V : Type}

/-- One entry of a log: it erases a key, sets a key, or does nothing. -/
inductive Entry (K M : Type)
  | erase (k : K)
  | set (k : K) (m : M)
  | skip
deriving DecidableEq

/-- What a set does to the value of its key: the last one wins. -/
structure Cell (M V : Type) where
  fresh : M → V
  revise : M → V → V
  revise_fresh : ∀ m m', revise m (fresh m') = fresh m
  revise_revise : ∀ m m' v, revise m (revise m' v) = revise m v

/-- The cell that holds exactly what was set last. -/
def Cell.plain (M : Type) : Cell M M where
  fresh := id
  revise := fun m _ => m
  revise_fresh _ _ := rfl
  revise_revise _ _ _ := rfl

def Cell.write (c : Cell M V) (m : M) : Option V → Option V
  | none => some (c.fresh m)
  | some v => some (c.revise m v)

section Replay

variable [DecidableEq K] (c : Cell M V)

/-- The effect of one entry on the value of the key `k`. -/
def Cell.actAt (k : K) : Option V → Entry K M → Option V
  | x, .erase k' => if k' = k then none else x
  | x, .set k' m => if k' = k then c.write m x else x
  | x, .skip => x

/-- The effect of one entry on a map. -/
def Cell.apply (f : K → Option V) (e : Entry K M) : K → Option V := fun k => c.actAt k (f k) e

/-- The effect of a log on a map: its entries in order. -/
def Cell.replay (f : K → Option V) (log : List (Entry K M)) : K → Option V := log.foldl c.apply f

@[simp] theorem Cell.replay_nil (f : K → Option V) : c.replay f [] = f := rfl

@[simp] theorem Cell.replay_cons (f : K → Option V) (e : Entry K M) (log : List (Entry K M)) :
    c.replay f (e :: log) = c.replay (c.apply f e) log := rfl

theorem Cell.replay_append (f : K → Option V) (l₁ l₂ : List (Entry K M)) :
    c.replay f (l₁ ++ l₂) = c.replay (c.replay f l₁) l₂ := List.foldl_append

theorem Cell.replay_snoc (f : K → Option V) (l : List (Entry K M)) (e : Entry K M) :
    c.replay f (l ++ [e]) = c.apply (c.replay f l) e := by
  rw [Cell.replay_append]; rfl

theorem plain_apply_set (f : K → Option M) (k : K) (m : M) :
    (Cell.plain M).apply f (.set k m) = Function.update f k (some m) := by
  funext k'
  show (if k = k' then (Cell.plain M).write m (f k') else f k') = _
  by_cases hk : k' = k
  · subst hk
    rw [if_pos rfl, Function.update_self]
    cases f k' <;> rfl
  · rw [if_neg (Ne.symm hk), Function.update_of_ne hk]

theorem plain_apply_erase (f : K → Option M) (k : K) :
    (Cell.plain M).apply f (.erase k) = Function.update f k none := by
  funext k'
  show (if k = k' then none else f k') = _
  by_cases hk : k' = k
  · subst hk; rw [if_pos rfl, Function.update_self]
  · rw [if_neg (Ne.symm hk), Function.update_of_ne hk]

end Replay

/-! ## Summaries -/

/-- What a log does to one key: nothing, erase it, set it from nothing, or set it from what it holds. -/
inductive Summary (M : Type)
  | keep
  | clear
  | renew (m : M)
  | write (m : M)
deriving DecidableEq

/-- The value of a key after its entries have been summed up. -/
def Summary.act (c : Cell M V) : Summary M → Option V → Option V
  | .keep, x => x
  | .clear, _ => none
  | .renew m, _ => some (c.fresh m)
  | .write m, x => c.write m x

/-- The summary of a log with one more entry. -/
def Summary.step [DecidableEq K] (k : K) : Summary M → Entry K M → Summary M
  | s, .erase k' => if k' = k then .clear else s
  | .keep, .set k' m => if k' = k then .write m else .keep
  | .write m', .set k' m => if k' = k then .write m else .write m'
  | .clear, .set k' m => if k' = k then .renew m else .clear
  | .renew m', .set k' m => if k' = k then .renew m else .renew m'
  | s, .skip => s

/-- The summary of a log at the key `k`. -/
def summary [DecidableEq K] (k : K) (log : List (Entry K M)) : Summary M := log.foldl (Summary.step k) .keep

theorem Summary.act_idem (c : Cell M V) (s : Summary M) (x : Option V) : s.act c (s.act c x) = s.act c x := by
  cases s with
  | keep => rfl
  | clear => rfl
  | renew m => rfl
  | write m => cases x <;> simp [Summary.act, Cell.write, c.revise_fresh, c.revise_revise]

section

variable [DecidableEq K] (c : Cell M V)

theorem Summary.act_step (k : K) (s : Summary M) (e : Entry K M) (x : Option V) :
    (Summary.step k s e).act c x = c.actAt k (s.act c x) e := by
  cases e with
  | erase k' => by_cases h : k' = k <;> cases s <;> simp [Summary.step, Cell.actAt, Summary.act, h]
  | set k' m =>
    by_cases h : k' = k
    · cases s <;> simp [Summary.step, Cell.actAt, Summary.act, Cell.write, h, c.revise_fresh]
      cases x <;> simp [c.revise_fresh, c.revise_revise]
    · cases s <;> simp [Summary.step, Cell.actAt, Summary.act, h]
  | skip => cases s <;> rfl

theorem summary_snoc (k : K) (log : List (Entry K M)) (e : Entry K M) :
    summary k (log ++ [e]) = Summary.step k (summary k log) e := by
  simp [summary, List.foldl_append]

/-- Replaying a log acts on each key through its summary. -/
theorem Cell.replay_eq (f : K → Option V) (log : List (Entry K M)) (k : K) :
    c.replay f log k = (summary k log).act c (f k) := by
  induction log using List.reverseRecOn with
  | nil => rfl
  | append_singleton log e ih =>
    rw [Cell.replay_snoc, summary_snoc, Summary.act_step, ← ih]; rfl

/-- A log replayed a second time changes nothing. -/
theorem Cell.replay_twice (f : K → Option V) (log : List (Entry K M)) :
    c.replay (c.replay f log) log = c.replay f log := by
  funext k
  rw [Cell.replay_eq, Cell.replay_eq, Summary.act_idem]

/-- A log replayed after one of its prefixes: the prefix leaves no trace. -/
theorem Cell.replay_after_prefix (f : K → Option V) {p log : List (Entry K M)} (hp : p <+: log) :
    c.replay (c.replay f p) log = c.replay f log := by
  obtain ⟨r, rfl⟩ := hp
  -- the prefix is replayed twice in a row, which is the same as once
  rw [Cell.replay_append, Cell.replay_twice, ← Cell.replay_append]

/-! ## Touched keys -/

/-- The entries for the key `k`. -/
def Entry.touches (k : K) : Entry K M → Prop
  | .erase k' => k' = k
  | .set k' _ => k' = k
  | .skip => False

instance (k : K) (e : Entry K M) : Decidable (e.touches k) := by
  cases e <;> unfold Entry.touches <;> infer_instance

theorem Summary.step_eq_keep (k : K) (s : Summary M) (e : Entry K M) :
    Summary.step k s e = .keep ↔ s = .keep ∧ ¬ e.touches k := by
  cases e with
  | erase k' => by_cases h : k' = k <;> simp [Summary.step, Entry.touches, h]
  | set k' m => by_cases h : k' = k <;> cases s <;> simp [Summary.step, Entry.touches, h]
  | skip => cases s <;> simp [Summary.step, Entry.touches]

/-- A log keeps a key exactly when none of its entries is for that key. -/
theorem summary_eq_keep (k : K) (log : List (Entry K M)) :
    summary k log = .keep ↔ ∀ e ∈ log, ¬ e.touches k := by
  induction log using List.reverseRecOn with
  | nil => simp [summary]
  | append_singleton log e ih =>
    rw [summary_snoc, Summary.step_eq_keep, ih]
    simp only [List.mem_append, List.mem_singleton]
    constructor
    · rintro ⟨h1, h2⟩ x (hx | rfl)
      · exact h1 x hx
      · exact h2
    · exact fun h => ⟨fun x hx => h x (.inl hx), h e (.inr rfl)⟩

theorem Cell.replay_untouched (f : K → Option V) {log : List (Entry K M)} {k : K}
    (h : ∀ e ∈ log, ¬ e.touches k) : c.replay f log k = f k := by
  rw [Cell.replay_eq, (summary_eq_keep k log).2 h]; rfl

/-- A plain log that has an entry for a key decides its value, whatever the key held before. -/
theorem replay_plain_touched (f g : K → Option M) {log : List (Entry K M)} {k : K}
    (h : ∃ e ∈ log, e.touches k) : (Cell.plain M).replay f log k = (Cell.plain M).replay g log k := by
  have hne : summary k log ≠ .keep := by
    rw [Ne, summary_eq_keep]; push Not; exact h
  rw [Cell.replay_eq, Cell.replay_eq]
  cases hs : summary k log with
  | keep => exact absurd hs hne
  | clear => rfl
  | renew m => rfl
  | write m => cases f k <;> cases g k <;> rfl

/-- Two maps agree at a key after a plain log exactly when they agreed before or the log has an
entry for the key. -/
theorem replay_plain_eq_iff (f g : K → Option M) (log : List (Entry K M)) (k : K) :
    (Cell.plain M).replay f log k = (Cell.plain M).replay g log k ↔ (f k ≠ g k → ∃ e ∈ log, e.touches k) := by
  constructor
  · intro heq hne
    by_contra hno
    push Not at hno
    rw [Cell.replay_untouched _ f hno, Cell.replay_untouched _ g hno] at heq
    exact hne heq
  · intro h
    by_cases hfg : f k = g k
    · rw [Cell.replay_eq, Cell.replay_eq, hfg]
    · exact replay_plain_touched f g (h hfg)

/-! ## Erased keys -/

/-- A log that does not erase a key leaves it alone or writes it. -/
theorem summary_of_not_erased {k : K} {log : List (Entry K M)} (h : ∀ e ∈ log, e ≠ .erase k) :
    summary k log = .keep ∨ ∃ m, summary k log = .write m := by
  induction log using List.reverseRecOn with
  | nil => exact .inl rfl
  | append_singleton log e ih =>
    have ih := ih fun e he => h e (List.mem_append_left _ he)
    rw [summary_snoc]
    cases e with
    | erase k' =>
      have hk : k' ≠ k := fun hk => h (.erase k') (List.mem_append_right _ (List.mem_singleton_self _)) (by rw [hk])
      rcases ih with ih | ⟨m, ih⟩
      · exact .inl (by simp [Summary.step, hk, ih])
      · exact .inr ⟨m, by simp [Summary.step, hk, ih]⟩
    | set k' m' =>
      by_cases hk : k' = k
      · exact .inr ⟨m', by rcases ih with ih | ⟨m, ih⟩ <;> simp [Summary.step, hk, ih]⟩
      · rcases ih with ih | ⟨m, ih⟩
        · exact .inl (by simp [Summary.step, hk, ih])
        · exact .inr ⟨m, by simp [Summary.step, hk, ih]⟩
    | skip =>
      rcases ih with ih | ⟨m, ih⟩
      · exact .inl (by simp [Summary.step, ih])
      · exact .inr ⟨m, by simp [Summary.step, ih]⟩

/-- A log that erases a key leaves it empty or sets it from nothing. -/
theorem summary_of_erased {k : K} {log : List (Entry K M)} (h : Entry.erase k ∈ log) :
    summary k log = .clear ∨ ∃ m, summary k log = .renew m := by
  induction log using List.reverseRecOn with
  | nil => cases h
  | append_singleton log e ih =>
    rw [summary_snoc]
    rcases List.mem_append.1 h with h | h
    · rcases ih h with ih | ⟨m, ih⟩ <;> cases e with
      | erase k' => by_cases hk : k' = k <;> simp [Summary.step, hk, ih]
      | set k' m' => by_cases hk : k' = k <;> simp [Summary.step, hk, ih]
      | skip => simp [Summary.step, ih]
    · rw [← List.mem_singleton.1 h]
      exact .inl (by simp [Summary.step])

/-! ## Logs that only set -/

/-- The value a summary leaves was set by an entry of the log. -/
theorem summary_mem {k : K} {log : List (Entry K M)} {m : M}
    (h : summary k log = .write m ∨ summary k log = .renew m) : Entry.set k m ∈ log := by
  induction log using List.reverseRecOn with
  | nil => rcases h with h | h <;> cases h
  | append_singleton log e ih =>
    rw [summary_snoc] at h
    rw [List.mem_append, List.mem_singleton]
    cases e with
    | erase k' =>
      by_cases hk : k' = k
      · rcases h with h | h <;> simp [Summary.step, hk] at h
      · exact .inl (ih (by simpa [Summary.step, hk] using h))
    | set k' m' =>
      by_cases hk : k' = k
      · have hm : m' = m := by
          cases hs : summary k log <;> simp [Summary.step, hk, hs] at h <;> exact h
        exact .inr (by rw [hk, hm])
      · refine .inl (ih ?_)
        cases hs : summary k log <;> simp [Summary.step, hk, hs] at h ⊢ <;> exact h
    | skip => exact .inl (ih (by simpa [Summary.step] using h))

/-- A log that does not erase a key leaves it as it was or holding a value it set. -/
theorem replay_plain_of_not_erased (f : K → Option M) {log : List (Entry K M)} {k : K}
    (h : ∀ e ∈ log, e ≠ .erase k) :
    ((∀ m, Entry.set k m ∉ log) ∧ (Cell.plain M).replay f log k = f k) ∨
      ∃ m, Entry.set k m ∈ log ∧ (Cell.plain M).replay f log k = some m := by
  rcases summary_of_not_erased h with hs | ⟨m, hs⟩
  · have hno := (summary_eq_keep k log).1 hs
    exact .inl ⟨fun m hm => hno _ hm rfl, Cell.replay_untouched _ f hno⟩
  · refine .inr ⟨m, summary_mem (.inl hs), ?_⟩
    rw [Cell.replay_eq, hs]
    cases f k <;> rfl

/-- A log that erases nothing turns a map into exactly what it sets when the map holds no key the
log does not set, and the log sets no key to two values. -/
theorem replay_plain_graph_iff (f : K → Option M) {log : List (Entry K M)} (h : ∀ e ∈ log, ∀ k, e ≠ .erase k) :
    (∀ k m, (Cell.plain M).replay f log k = some m ↔ Entry.set k m ∈ log) ↔
      (∀ k, (f k).isSome → ∃ m, Entry.set k m ∈ log) ∧
        ∀ k m₁ m₂, Entry.set k m₁ ∈ log → Entry.set k m₂ ∈ log → m₁ = m₂ := by
  constructor
  · intro hgraph
    refine ⟨fun k hk => ?_, fun k m₁ m₂ h₁ h₂ => ?_⟩
    · rcases replay_plain_of_not_erased f (fun e he => h e he k) with ⟨-, heq⟩ | ⟨m, hm, -⟩
      · obtain ⟨m, hm⟩ := Option.isSome_iff_exists.1 hk
        exact ⟨m, (hgraph k m).1 (heq.trans hm)⟩
      · exact ⟨m, hm⟩
    · have heq := ((hgraph k m₁).2 h₁).symm.trans ((hgraph k m₂).2 h₂)
      exact Option.some.inj heq
  · rintro ⟨hstale, huniq⟩ k m
    rcases replay_plain_of_not_erased f (fun e he => h e he k) with ⟨hno, heq⟩ | ⟨m', hm', heq⟩
    · have hnone : f k = none := by
        cases hf : f k with
        | none => rfl
        | some m' =>
          obtain ⟨m'', hm''⟩ := hstale k (by rw [hf]; rfl)
          exact absurd hm'' (hno m'')
      rw [heq, hnone]
      exact ⟨fun h => (Option.some_ne_none m h.symm).elim, fun h => absurd h (hno m)⟩
    · rw [heq]
      refine ⟨fun h => ?_, fun h => ?_⟩
      · rw [← Option.some.inj h]; exact hm'
      · rw [huniq k m' m hm' h]

/-- When all sets of one key set the same value, that value is what the log leaves. -/
theorem replay_plain_sets {I : Type} (key : I → K) (value : I → M) (f : K → Option M) {l : List I}
    (h : ∀ i ∈ l, ∀ j ∈ l, key i = key j → value i = value j) {i : I} (hi : i ∈ l) :
    (Cell.plain M).replay f (l.map fun i => .set (key i) (value i)) (key i) = some (value i) := by
  have hset : ∀ {k : K} {m : M}, Entry.set k m ∈ (l.map fun i => Entry.set (key i) (value i)) ↔
      ∃ j ∈ l, key j = k ∧ value j = m := by
    intro k m
    simp only [List.mem_map, Entry.set.injEq]
  have hno : ∀ e ∈ (l.map fun i => Entry.set (key i) (value i)), e ≠ .erase (key i) := by
    intro e he heq
    obtain ⟨j, -, rfl⟩ := List.mem_map.1 he
    cases heq
  rcases replay_plain_of_not_erased f hno with ⟨habsent, -⟩ | ⟨m, hm, hreplay⟩
  · exact absurd (hset.2 ⟨i, hi, rfl, rfl⟩) (habsent (value i))
  · obtain ⟨j, hj, hkey, rfl⟩ := hset.1 hm
    rw [hreplay, h j hj i hi hkey]

/-! ## Maps of values -/

/-- The entry with its value mapped. -/
def Entry.map {N : Type} (g : M → N) : Entry K M → Entry K N
  | .erase k => .erase k
  | .set k m => .set k (g m)
  | .skip => .skip

/-- A plain replay commutes with a map of the values. -/
theorem replay_plain_map {N : Type} (g : M → N) (log : List (Entry K M)) (f : K → Option M) :
    (fun k => ((Cell.plain M).replay f log k).map g) =
      (Cell.plain N).replay (fun k => (f k).map g) (log.map (Entry.map g)) := by
  induction log generalizing f with
  | nil => rfl
  | cons e log ih =>
    rw [List.map_cons, Cell.replay_cons, Cell.replay_cons, ih]
    congr 1
    funext k
    cases e with
    | erase k' => by_cases hk : k' = k <;> simp [Cell.apply, Cell.actAt, Entry.map, hk]
    | set k' m =>
      by_cases hk : k' = k
      · cases hf : f k <;> simp [Cell.apply, Cell.actAt, Cell.write, Cell.plain, Entry.map, hk, hf]
      · simp [Cell.apply, Cell.actAt, Entry.map, hk]
    | skip => rfl

end

end KeyedLog
