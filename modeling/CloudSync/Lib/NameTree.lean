/-
Trees by their paths, and walks that look up one name after the other. Lookups that answer as the tree does, one name
at a time, find together what the tree has at the whole path: an entry all of whose proper prefixes are directories.
-/
import Mathlib.Data.Option.Basic
import Mathlib.Data.List.Basic
import Mathlib.Tactic

namespace NameTree

variable {κ ν η ρ σ : Type}

/-- What is at each path, and which entries are directories. -/
structure Tree (κ ν : Type) where
  entry : List κ → Option ν
  dir : ν → Bool

/-- The entry at some names under a directory, if those before the last lead through directories. -/
def Tree.find (t : Tree κ ν) : List κ → List κ → Option ν
  | _, [] => none
  | base, [name] => t.entry (base ++ [name])
  | base, name :: next :: rest => match t.entry (base ++ [name]) with
    | some v => if t.dir v then t.find (base ++ [name]) (next :: rest) else none
    | none => none

/-- Every proper prefix of the names is a directory. -/
def Tree.Leads (t : Tree κ ν) (base names : List κ) : Prop :=
  ∀ ds, ds <+: names → ds ≠ [] → ds ≠ names → ∃ u, t.entry (base ++ ds) = some u ∧ t.dir u = true

theorem Tree.leads_cons {t : Tree κ ν} {base : List κ} {name : κ} {rest : List κ} (hrest : rest ≠ []) :
    t.Leads base (name :: rest) ↔
      (∃ u, t.entry (base ++ [name]) = some u ∧ t.dir u = true) ∧ t.Leads (base ++ [name]) rest := by
  constructor
  · intro h
    constructor
    · refine h [name] ⟨rest, rfl⟩ (List.cons_ne_nil _ _) fun heq => hrest ?_
      exact (List.cons.inj heq).2.symm
    · intro ds hds _ hne
      have hcons := h (name :: ds) (List.cons_prefix_cons.2 ⟨rfl, hds⟩) (List.cons_ne_nil _ _) fun heq =>
        hne (List.cons.inj heq).2
      rwa [List.append_cons] at hcons
  · rintro ⟨hfirst, h⟩ ds hds hnil hne
    cases ds with
    | nil => exact absurd rfl hnil
    | cons first ds =>
      obtain ⟨rfl, hrest'⟩ := List.cons_prefix_cons.1 hds
      rw [List.append_cons]
      by_cases hempty : ds = []
      · rwa [hempty, List.append_nil]
      · exact h ds hrest' hempty fun heq => hne (by rw [heq])

theorem Tree.find_eq_some_iff {t : Tree κ ν} {v : ν} : ∀ {base names : List κ},
    t.find base names = some v ↔ names ≠ [] ∧ t.entry (base ++ names) = some v ∧ t.Leads base names
  | base, [] => by
    constructor
    · intro h
      cases h
    · rintro ⟨hne, -⟩
      exact absurd rfl hne
  | base, [name] => by
    have hleads : t.Leads base [name] := by
      intro ds hds hnil hne
      cases ds with
      | nil => exact absurd rfl hnil
      | cons first ds =>
        obtain ⟨rfl, hrest⟩ := List.cons_prefix_cons.1 hds
        exact absurd (by rw [List.prefix_nil.1 hrest]) hne
    constructor
    · exact fun h => ⟨List.cons_ne_nil _ _, h, hleads⟩
    · exact fun h => h.2.1
  | base, name :: next :: rest => by
    rw [leads_cons (List.cons_ne_nil next rest), find, List.append_cons base name (next :: rest)]
    cases hentry : t.entry (base ++ [name]) with
    | none =>
      constructor
      · intro h
        cases h
      · rintro ⟨-, -, ⟨u, hu, -⟩, -⟩
        cases hu
    | some u =>
      simp only
      cases hdir : t.dir u with
      | false =>
        constructor
        · intro h
          cases h
        · rintro ⟨-, -, ⟨u', hu', hdir'⟩, -⟩
          obtain rfl := Option.some.inj hu'
          rw [hdir] at hdir'
          cases hdir'
      | true =>
        rw [if_pos rfl, find_eq_some_iff]
        constructor
        · rintro ⟨-, hv, hleads⟩
          exact ⟨List.cons_ne_nil _ _, hv, ⟨u, rfl, hdir⟩, hleads⟩
        · rintro ⟨-, hv, -, hleads⟩
          exact ⟨List.cons_ne_nil _ _, hv, hleads⟩

/-! ## Walks -/

/-- One lookup after the other, each at the handle the one before it has replied, and through directories only. -/
def walk (lookup : η → κ → σ → Option ρ × σ) (handle : ρ → η) (dir : ρ → Bool) : η → List κ → σ → Option ρ × σ
  | _, [], s => (none, s)
  | h, [name], s => lookup h name s
  | h, name :: next :: rest, s => match lookup h name s with
    | (some r, s) => if dir r then walk lookup handle dir (handle r) (next :: rest) s else (none, s)
    | (none, s) => (none, s)

/-- Lookups that follow a tree: at a handle that stands for a path, a name is answered as the tree has it. `good n`
holds of the states in which `n` more lookups work. -/
structure Follows (t : Tree κ ν) (lookup : η → κ → σ → Option ρ × σ) (handle : ρ → η) (dir : ρ → Bool)
    (valid : κ → Prop) (good : Nat → σ → Prop) (stands : η → List κ → σ → Prop) (shows : ρ → ν → σ → Prop) :
    Prop where
  missing : ∀ n h base name s, good (n + 1) s → stands h base s → valid name → t.entry (base ++ [name]) = none →
    (lookup h name s).1 = none
  found : ∀ n h base name s v, good (n + 1) s → stands h base s → valid name → t.entry (base ++ [name]) = some v →
    ∃ r, (lookup h name s).1 = some r ∧ dir r = t.dir v ∧ shows r v (lookup h name s).2 ∧
      good n (lookup h name s).2 ∧ stands (handle r) (base ++ [name]) (lookup h name s).2

/-- A walk finds what the tree has at the path. -/
theorem Follows.walk_find {t : Tree κ ν} {lookup : η → κ → σ → Option ρ × σ} {handle : ρ → η} {dir : ρ → Bool}
    {valid : κ → Prop} {good : Nat → σ → Prop} {stands : η → List κ → σ → Prop} {shows : ρ → ν → σ → Prop}
    (hfollows : Follows t lookup handle dir valid good stands shows) : ∀ (names : List κ) (h : η) (base : List κ)
      (s : σ), good names.length s → stands h base s → (∀ name ∈ names, valid name) →
        Option.Rel (fun r v => shows r v (walk lookup handle dir h names s).2)
          (walk lookup handle dir h names s).1 (t.find base names)
  | [], _, _, _, _, _, _ => .none
  | [name], h, base, s, hgood, hstands, hvalid => by
    have hname := hvalid name List.mem_cons_self
    unfold walk Tree.find
    cases hentry : t.entry (base ++ [name]) with
    | none =>
      rw [hfollows.missing 0 h base name s hgood hstands hname hentry]
      exact .none
    | some v =>
      obtain ⟨r, hr, -, hshows, -, -⟩ := hfollows.found 0 h base name s v hgood hstands hname hentry
      rw [hr]
      exact .some hshows
  | name :: next :: rest, h, base, s, hgood, hstands, hvalid => by
    have hname := hvalid name List.mem_cons_self
    unfold walk Tree.find
    cases hentry : t.entry (base ++ [name]) with
    | none =>
      have hmissing := hfollows.missing _ h base name s hgood hstands hname hentry
      rcases hlookup : lookup h name s with ⟨_ | r, s'⟩
      · exact .none
      · rw [hlookup] at hmissing
        cases hmissing
    | some v =>
      obtain ⟨r, hr, hdir, -, hgood', hstands'⟩ := hfollows.found _ h base name s v hgood hstands hname hentry
      rcases hlookup : lookup h name s with ⟨_ | r', s'⟩
      · rw [hlookup] at hr
        cases hr
      · rw [hlookup] at hr hgood' hstands'
        obtain rfl : r' = r := Option.some.inj hr
        simp only
        rw [hdir]
        cases t.dir v with
        | false => exact .none
        | true =>
          exact hfollows.walk_find (next :: rest) (handle r') (base ++ [name]) s' hgood' hstands' fun n hn =>
            hvalid n (List.mem_cons_of_mem _ hn)

end NameTree
