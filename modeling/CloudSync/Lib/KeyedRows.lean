/-
Tables whose rows have a unique key and a second unique attribute, their owner. Through `rowAt` such a table is a
map from keys to rows of pairwise different owners, and the statements that insert, revise and delete a row are
updates of that map.
-/
import CloudSync.Lib.UniqueKey
import Mathlib.Logic.Function.Basic

namespace KeyedRows

variable {α κ ω : Type}

structure Table (key : α → κ) (owner : α → ω) where
  rows : List α
  keysNodup : (rows.map key).Nodup
  ownersNodup : (rows.map owner).Nodup

namespace Table

variable {key : α → κ} {owner : α → ω}

def empty : Table key owner := ⟨[], List.nodup_nil, List.nodup_nil⟩

/-- The owner names one row. -/
theorem eq_of_owner (t : Table key owner) {r r' : α} (hr : r ∈ t.rows) (hr' : r' ∈ t.rows) (h : owner r = owner r') :
    r = r' := List.inj_on_of_nodup_map t.ownersNodup hr hr' h

variable [DecidableEq κ]

/-- The row of a key. -/
def rowAt (t : Table key owner) (k : κ) : Option α := t.rows.find? (key · = k)

theorem rowAt_eq_some {t : Table key owner} {k : κ} {r : α} : t.rowAt k = some r ↔ r ∈ t.rows ∧ key r = k :=
  UniqueKey.find_eq_some t.keysNodup

theorem rowAt_eq_none {t : Table key owner} {k : κ} : t.rowAt k = none ↔ k ∉ t.rows.map key := UniqueKey.find_eq_none

theorem mem_iff_rowAt {t : Table key owner} {r : α} : r ∈ t.rows ↔ t.rowAt (key r) = some r := by
  rw [rowAt_eq_some]
  exact ⟨fun h => ⟨h, rfl⟩, And.left⟩

/-- Rows of one owner have one key. -/
theorem key_of_owner {t : Table key owner} {k k' : κ} {r r' : α} (hr : t.rowAt k = some r) (hr' : t.rowAt k' = some r')
    (h : owner r = owner r') : k = k' := by
  obtain ⟨hmem, rfl⟩ := rowAt_eq_some.1 hr
  obtain ⟨hmem', rfl⟩ := rowAt_eq_some.1 hr'
  rw [t.eq_of_owner hmem hmem' h]

/-! ## Inserting -/

section

variable [DecidableEq ω]

/-- The table with one more row, if neither its key nor its owner has a row. -/
def insert (t : Table key owner) (r : α) : Option (Table key owner) :=
  if h : key r ∉ t.rows.map key ∧ owner r ∉ t.rows.map owner then
    some {
      rows := t.rows ++ [r]
      keysNodup := by
        rw [List.map_append]
        exact t.keysNodup.append (List.nodup_singleton _) (List.disjoint_singleton.2 h.1)
      ownersNodup := by
        rw [List.map_append]
        exact t.ownersNodup.append (List.nodup_singleton _) (List.disjoint_singleton.2 h.2) }
  else none

theorem insert_eq_none {t : Table key owner} {r : α} :
    t.insert r = none ↔ ∃ k r', t.rowAt k = some r' ∧ (k = key r ∨ owner r' = owner r) := by
  unfold insert
  split
  · rename_i hfree
    refine iff_of_false (Option.some_ne_none _) ?_
    rintro ⟨k, r', hrow, htaken⟩
    obtain ⟨hmem, rfl⟩ := rowAt_eq_some.1 hrow
    rcases htaken with hkey | howner
    · exact hfree.1 (hkey ▸ List.mem_map_of_mem hmem)
    · exact hfree.2 (howner ▸ List.mem_map_of_mem hmem)
  · rename_i htaken
    refine iff_of_true rfl ?_
    rw [not_and_or, not_not, not_not] at htaken
    rcases htaken with hkey | howner
    · obtain ⟨r', hmem, hkey⟩ := List.mem_map.1 hkey
      exact ⟨key r', r', rowAt_eq_some.2 ⟨hmem, rfl⟩, .inl hkey⟩
    · obtain ⟨r', hmem, howner⟩ := List.mem_map.1 howner
      exact ⟨key r', r', rowAt_eq_some.2 ⟨hmem, rfl⟩, .inr howner⟩

theorem rows_insert {t t' : Table key owner} {r : α} (h : t.insert r = some t') :
    t'.rows = t.rows ++ [r] ∧ t.rowAt (key r) = none := by
  unfold insert at h
  split at h
  · rename_i hfree
    cases h
    exact ⟨rfl, rowAt_eq_none.2 hfree.1⟩
  · cases h

theorem rowAt_insert {t t' : Table key owner} {r : α} (h : t.insert r = some t') :
    t'.rowAt = Function.update t.rowAt (key r) (some r) := by
  obtain ⟨hrows, hnew⟩ := rows_insert h
  funext k
  unfold rowAt at hnew ⊢
  rw [hrows, List.find?_append]
  by_cases hk : k = key r
  · subst hk
    rw [Function.update_self, hnew, List.find?_cons_of_pos (by simp), Option.none_or]
  · rw [Function.update_of_ne hk, List.find?_cons_of_neg (by simpa using Ne.symm hk), List.find?_nil, Option.or_none]

/-! ## Revising -/

/-- What a statement that revises the row of a key does to one row. -/
def reviseRow (key : α → κ) (k : κ) (f : α → α) (r : α) : α := if key r = k then f r else r

theorem key_reviseRow {k : κ} {f : α → α} (hf : ∀ r, key (f r) = key r) (r : α) :
    key (reviseRow key k f r) = key r := by
  unfold reviseRow
  split
  · exact hf r
  · rfl

/-- The table with the row of a key revised, if no other row has its new owner. -/
def revise (t : Table key owner) (k : κ) (f : α → α) (hf : ∀ r, key (f r) = key r) : Option (Table key owner) :=
  if h : ∃ r ∈ t.rows, ∃ r' ∈ t.rows, key r = k ∧ key r' ≠ k ∧ owner r' = owner (f r) then none
  else some {
    rows := t.rows.map (reviseRow key k f)
    keysNodup := by
      rw [List.map_map, show key ∘ reviseRow key k f = key from funext (key_reviseRow hf)]
      exact t.keysNodup
    ownersNodup := by
      -- of two rows at most one has the key, and no other row has its new owner
      have hkeys := List.pairwise_map.1 t.keysNodup
      have howners := List.pairwise_map.1 t.ownersNodup
      rw [List.map_map]
      refine List.pairwise_map.2 ((hkeys.and howners).imp_of_mem fun {a b} ha hb hab => ?_)
      show owner (reviseRow key k f a) ≠ owner (reviseRow key k f b)
      unfold reviseRow
      split <;> split
      · rename_i hak hbk
        exact absurd (hak.trans hbk.symm) hab.1
      · rename_i hak hbk
        exact fun heq => h ⟨a, ha, b, hb, hak, hbk, heq.symm⟩
      · rename_i hak hbk
        exact fun heq => h ⟨b, hb, a, ha, hbk, hak, heq⟩
      · exact hab.2 }

theorem revise_eq_none {t : Table key owner} {k : κ} {f : α → α} {hf : ∀ r, key (f r) = key r} :
    t.revise k f hf = none ↔
      ∃ r k' r', t.rowAt k = some r ∧ k' ≠ k ∧ t.rowAt k' = some r' ∧ owner r' = owner (f r) := by
  unfold revise
  split
  · rename_i htaken
    refine iff_of_true rfl ?_
    obtain ⟨r, hmem, r', hmem', hkey, hne, howner⟩ := htaken
    exact ⟨r, key r', r', rowAt_eq_some.2 ⟨hmem, hkey⟩, hne, rowAt_eq_some.2 ⟨hmem', rfl⟩, howner⟩
  · rename_i hfree
    refine iff_of_false (Option.some_ne_none _) ?_
    rintro ⟨r, k', r', hrow, hne, hrow', howner⟩
    obtain ⟨hmem, hkey⟩ := rowAt_eq_some.1 hrow
    obtain ⟨hmem', rfl⟩ := rowAt_eq_some.1 hrow'
    exact hfree ⟨r, hmem, r', hmem', hkey, hne, howner⟩

theorem rows_revise {t t' : Table key owner} {k : κ} {f : α → α} {hf : ∀ r, key (f r) = key r}
    (h : t.revise k f hf = some t') : t'.rows = t.rows.map (reviseRow key k f) := by
  unfold revise at h
  split at h
  · cases h
  · cases h
    rfl

theorem rowAt_revise {t t' : Table key owner} {k : κ} {f : α → α} {hf : ∀ r, key (f r) = key r}
    (h : t.revise k f hf = some t') : t'.rowAt = Function.update t.rowAt k ((t.rowAt k).map f) := by
  funext k'
  have hpred : (fun r => decide (key r = k')) ∘ reviseRow key k f = fun r => decide (key r = k') := by
    funext r
    show decide (key (reviseRow key k f r) = k') = _
    rw [key_reviseRow hf]
  have hrow : t'.rowAt k' = (t.rowAt k').map (reviseRow key k f) := by
    unfold rowAt
    rw [rows_revise h, List.find?_map, hpred]
  rw [hrow]
  by_cases hk : k' = k
  · subst hk
    rw [Function.update_self]
    refine Option.map_congr fun r hr => ?_
    exact if_pos (rowAt_eq_some.1 hr).2
  · rw [Function.update_of_ne hk]
    refine (Option.map_congr (g := id) fun r hr => ?_).trans (Option.map_id_apply)
    exact if_neg ((rowAt_eq_some.1 hr).2 ▸ hk)

end

/-! ## Deleting -/

/-- The table without the row of a key. -/
def delete (t : Table key owner) (k : κ) : Table key owner where
  rows := t.rows.filter (key · ≠ k)
  keysNodup := t.keysNodup.sublist (List.filter_sublist.map _)
  ownersNodup := t.ownersNodup.sublist (List.filter_sublist.map _)

theorem rowAt_delete (t : Table key owner) (k : κ) : (t.delete k).rowAt = Function.update t.rowAt k none := by
  funext k'
  by_cases hk : k' = k
  · subst hk
    rw [Function.update_self, rowAt_eq_none]
    rintro hmem
    obtain ⟨r, hr, hkey⟩ := List.mem_map.1 hmem
    exact absurd hkey (by simpa using (List.mem_filter.1 hr).2)
  · rw [Function.update_of_ne hk]
    apply Option.ext
    intro r
    rw [rowAt_eq_some, rowAt_eq_some]
    refine and_congr_left fun hkey => ?_
    exact List.mem_filter.trans (and_iff_left (by simpa using hkey ▸ hk))

/-- A statement on the row of a key changes a row exactly when there is one. -/
theorem countP_pos {t : Table key owner} {k : κ} : 0 < t.rows.countP (key · = k) ↔ (t.rowAt k).isSome := by
  rw [List.countP_pos_iff, rowAt, List.find?_isSome]

end Table

end KeyedRows
