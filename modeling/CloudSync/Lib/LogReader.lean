/-
Readers of an append-only log of keyed changes. A reader stores the position up to which it has applied the log, and
it may stop after any entry and start again at the stored position, so entries are applied at least once. However
often it is interrupted, once it has read to the end the map is the one of a single pass.
-/
import CloudSync.Lib.KeyedLog

namespace LogReader

open KeyedLog

section

variable {α β : Type}

/-- The entries of a log from one position to another. -/
def between (log : List α) (i j : Nat) : List α := (log.drop i).take (j - i)

theorem between_append {log : List α} {i j n : Nat} (hij : i ≤ j) (hjn : j ≤ n) :
    between log i j ++ between log j n = between log i n := by
  unfold between
  have hdrop : log.drop j = (log.drop i).drop (j - i) := by
    rw [List.drop_drop, Nat.add_sub_cancel' hij]
  rw [hdrop, ← List.take_add, show j - i + (n - j) = n - i by omega]

theorem between_prefix {log : List α} {i j n : Nat} (hjn : j ≤ n) : between log i j <+: between log i n := by
  unfold between
  exact List.take_prefix_take_left (by omega)

/-- A log that grew is the same between the old positions. -/
theorem between_of_prefix {log log' : List α} (h : log <+: log') {i j : Nat} (hj : j ≤ log.length) :
    between log' i j = between log i j := by
  obtain ⟨rest, rfl⟩ := h
  unfold between
  rw [← List.drop_take, ← List.drop_take, List.take_append_of_le_length hj]

theorem between_self (log : List α) (i : Nat) : between log i i = [] := by
  unfold between
  rw [Nat.sub_self, List.take_zero]

theorem map_between (f : α → β) (log : List α) (i j : Nat) : (between log i j).map f = between (log.map f) i j := by
  unfold between
  rw [List.map_take, List.map_drop]

theorem length_between {log : List α} {i j : Nat} (hj : j ≤ log.length) : (between log i j).length = j - i := by
  unfold between
  rw [List.length_take, List.length_drop]
  omega

end

section

variable {K M V : Type} [DecidableEq K] {c : Cell M V}

/-- The map `m` of a reader that started at the position `start` of the log with the map `base`, has stored the
position `pos`, and has applied no entry from `reach` on: reading on from `pos` to any position after `reach` gives
what one pass from `start` gives. -/
structure Behind (c : Cell M V) (base : K → Option V) (start : Nat) (log : List (Entry K M)) (pos reach : Nat)
    (m : K → Option V) : Prop where
  started : start ≤ pos
  applied : pos ≤ reach
  known : reach ≤ log.length
  catchUp : ∀ log', log <+: log' → ∀ n, reach ≤ n → n ≤ log'.length →
    c.replay m (between log' pos n) = c.replay base (between log' start n)

namespace Behind

variable {base m : K → Option V} {start pos reach : Nat} {log log' : List (Entry K M)}

theorem initial (hstart : start ≤ log.length) : Behind c base start log start start base where
  started := le_refl start
  applied := le_refl start
  known := hstart
  catchUp _ _ _ _ _ := rfl

/-- The log grows behind the reader's back. -/
theorem grow (h : Behind c base start log pos reach m) (hlog : log <+: log') :
    Behind c base start log' pos reach m where
  started := h.started
  applied := h.applied
  known := h.known.trans hlog.length_le
  catchUp _ hlog' := h.catchUp _ (hlog.trans hlog')

/-- The entries after the stored position are applied, up to some position. -/
theorem apply (h : Behind c base start log pos reach m) {j : Nat} (hlen : j ≤ log.length) :
    Behind c base start log pos (max reach j) (c.replay m (between log pos j)) where
  started := h.started
  applied := h.applied.trans (le_max_left _ _)
  known := max_le h.known hlen
  catchUp log' hlog' n hn hn' := by
    have hprefix : between log pos j <+: between log' pos n := by
      rw [← between_of_prefix hlog' hlen]
      exact between_prefix ((le_max_right _ _).trans hn)
    rw [Cell.replay_after_prefix c m hprefix, h.catchUp log' hlog' n ((le_max_left _ _).trans hn) hn']

/-- They are applied and the position is stored. -/
theorem commit (h : Behind c base start log pos reach m) {j : Nat} (hj : pos ≤ j) (hlen : j ≤ log.length) :
    Behind c base start log j (max reach j) (c.replay m (between log pos j)) where
  started := h.started.trans hj
  applied := le_max_right _ _
  known := max_le h.known hlen
  catchUp log' hlog' n hn hn' := by
    rw [← between_of_prefix hlog' hlen, ← Cell.replay_append, between_append hj ((le_max_right _ _).trans hn)]
    exact h.catchUp log' hlog' n ((le_max_left _ _).trans hn) hn'

/-- A reader that is nowhere ahead of its position has made one pass. -/
theorem eq_replay (h : Behind c base start log pos pos m) : m = c.replay base (between log start pos) := by
  have hpass := h.catchUp log (List.prefix_refl log) pos (le_refl pos) h.known
  rwa [between_self] at hpass

end Behind

end

end LogReader
