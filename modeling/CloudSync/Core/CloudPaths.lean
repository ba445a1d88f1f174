/-
The parent and the file name of a cloud path, the text before and after its last slash once the slashes at the end
are trimmed, and the path with another component joined to it. A text makes the path of its slashed text unless it
begins with a backslash.
-/
import CloudSync.Core.Types
import CloudSync.Lib.LastSeparator

namespace CloudSync

open LastSeparator

namespace CloudPath

/-- `parent`: the text is cut at the last slash that is not at its end. -/
def parent (p : CloudPath) : Option CloudPath :=
  if p.text = ['/'] then none
  else
    let trimmed := trimEnd '/' p.text
    match rfind '/' trimmed with
    | some 0 => some root
    | some idx => some ⟨trimmed.take idx⟩
    | none => some root

/-- `file_name`: the first part of the trimmed text from the right. -/
def fileName (p : CloudPath) : Option Str :=
  if p.text = ['/'] then none
  else
    let trimmed := trimEnd '/' p.text
    (trimmed.splitOn '/').getLast?

def join (p : CloudPath) (component : Str) : CloudPath :=
  let base := trimEnd '/' p.text
  let component := component.dropWhile (· = '/')
  ⟨base ++ '/' :: component⟩

/-! ## Slashes for backslashes -/

theorem map_slashed_eq {s : Str} (h : '\\' ∉ s) : s.map slashed = s := by
  refine (List.map_congr_left fun c hc => ?_).trans (List.map_id s)
  have hne : c ≠ '\\' := fun heq => h (heq ▸ hc)
  exact if_neg hne

theorem backslash_notMem_slashed (s : Str) : '\\' ∉ s.map slashed := by
  intro h
  obtain ⟨c, -, hc⟩ := List.mem_map.1 h
  exact slashed_ne c hc

theorem map_slashed_map (s : Str) : (s.map slashed).map slashed = s.map slashed :=
  map_slashed_eq (backslash_notMem_slashed s)

/-- The text of a path made from a text that begins with a slash, and from one that does not. -/
theorem new_slash (s : Str) : new ('/' :: s) = ⟨'/' :: s.map slashed⟩ := by
  unfold new
  have hslash : ['/'].isPrefixOf ('/' :: s) = true := by simp
  simp only [if_pos hslash, List.map_cons]
  rfl

theorem new_bare {c : Char} (hc : c ≠ '/') (s : Str) : new (c :: s) = ⟨'/' :: (c :: s).map slashed⟩ := by
  unfold new
  have hslash : ¬ ['/'].isPrefixOf (c :: s) = true := by simpa using hc.symm
  simp only [if_neg hslash, List.map_cons]
  rfl

/-! ## Parents -/

/-- The parent of a path of slashes is the root, but the root has none. -/
theorem parent_slashes (n : Nat) :
    (CloudPath.mk (List.replicate (n + 1) '/')).parent = if n = 0 then none else some root := by
  unfold parent
  cases n with
  | zero => rfl
  | succ n =>
    have hne : List.replicate (n + 1 + 1) '/' ≠ ['/'] := fun heq => by cases heq
    have htrim : trimEnd '/' (List.replicate (n + 1 + 1) '/') = [] := by
      rw [← List.nil_append (List.replicate (n + 1 + 1) '/'), trimEnd_replicate]
      rfl
    rw [if_neg hne, if_neg (Nat.succ_ne_zero n)]
    simp only [htrim]
    rfl

/-- The parent of a path with a name is the text before the name and its slash. -/
theorem parent_name {name : Str} (hne : name ≠ []) (hno : '/' ∉ name) (pre : Str) (n : Nat) :
    (CloudPath.mk (pre ++ '/' :: name ++ List.replicate n '/')).parent = some (if pre = [] then root else ⟨pre⟩) := by
  have htrim : trimEnd '/' (pre ++ '/' :: name ++ List.replicate n '/') = pre ++ '/' :: name := by
    rw [trimEnd_replicate, (bare_name hne hno pre).trimEnd_eq]
  have hroot : pre ++ '/' :: name ++ List.replicate n '/' ≠ ['/'] := fun heq => by
    have hslash : trimEnd '/' ['/'] = [] := rfl
    rw [heq, hslash] at htrim
    exact List.append_ne_nil_of_right_ne_nil _ (List.cons_ne_nil _ _) htrim.symm
  unfold parent
  simp only [if_neg hroot, htrim, rfind_append hno]
  cases pre with
  | nil => rfl
  | cons c pre =>
    rw [if_neg (List.cons_ne_nil c pre)]
    show some (CloudPath.mk (List.take (c :: pre).length _)) = _
    rw [List.take_left]

/-- A text that begins a path made by `new` is one of `new` itself. -/
theorem new_initial {s pre : Str} (h : pre <+: (new s).text) (hne : pre ≠ []) : new pre = ⟨pre⟩ := by
  obtain ⟨rest, hrest⟩ := new_head s
  cases pre with
  | nil => exact absurd rfl hne
  | cons c pre =>
    have hc : c = '/' := by
      rw [hrest] at h
      exact (List.cons_prefix_cons.1 h).1
    have hclean : '\\' ∉ pre := fun hmem =>
      backslash_notMem_slashed _ (h.subset (List.mem_cons_of_mem c hmem))
    rw [hc, new_slash, map_slashed_eq hclean]

/-- Parents are paths made by `new`. -/
theorem parent_made {s : Str} {d : CloudPath} (h : (new s).parent = some d) : ∃ s', d = new s' := by
  obtain ⟨rest, hrest⟩ := new_head s
  have hpath : new s = ⟨'/' :: rest⟩ := congrArg CloudPath.mk hrest
  rcases exists_shape rest with ⟨n, heq⟩ | ⟨pre, name, n, hne, hno, heq⟩
  · rw [hpath, heq, parent_slashes] at h
    split at h
    · cases h
    · cases h
      exact ⟨['/'], rfl⟩
  · rw [hpath, heq, parent_name hne hno] at h
    cases h
    split
    · exact ⟨['/'], rfl⟩
    · rename_i hpre
      refine ⟨pre, (new_initial (s := s) ?_ hpre).symm⟩
      rw [hrest, heq, List.append_assoc]
      exact List.prefix_append _ _

/-! ## Separators -/

/-- A text makes the path of its slashed text unless it begins with a backslash: that one is not yet a slash when
the leading slash is looked for. The path of a path's own text is that path. -/
theorem new_slashed_iff (s : Str) :
    (new s = new (s.map slashed) ∧ new (new s).asStr = new s) ↔ s.head? ≠ some '\\' := by
  rw [and_iff_left (show new (new s).asStr = new s from new_new s)]
  cases s with
  | nil => exact iff_of_true rfl (by simp)
  | cons c s =>
    rw [List.head?_cons, List.map_cons, Ne, Option.some.injEq]
    by_cases hslash : c = '/'
    · subst hslash
      refine iff_of_true ?_ (by decide)
      show new ('/' :: s) = new ('/' :: s.map slashed)
      rw [new_slash, new_slash, map_slashed_map]
    by_cases hback : c = '\\'
    · subst hback
      refine iff_of_false (fun heq => ?_) (not_not.2 rfl)
      -- the backslash becomes a second slash
      have htext : new ('\\' :: s) = new ('/' :: s.map slashed) := heq
      rw [new_bare hslash, new_slash, map_slashed_map] at htext
      have hlength := congrArg (fun p => p.text.length) htext
      simp at hlength
    · refine iff_of_true ?_ hback
      have hkept : slashed c = c := if_neg hback
      rw [hkept, new_bare hslash, new_bare hslash, List.map_cons, List.map_cons, map_slashed_map]

/-- A path with a leading backslash gets two slashes. -/
theorem leading_backslash :
    new "\\foo".toList = ⟨"//foo".toList⟩ ∧ new ("\\foo".toList.map slashed) = ⟨"/foo".toList⟩ ∧
      new "\\foo".toList ≠ new ("\\foo".toList.map slashed) := by
  decide +kernel

end CloudPath

end CloudSync
