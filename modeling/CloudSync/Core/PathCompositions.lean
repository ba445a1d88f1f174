/-
Compositions of the operations of cloud paths. Whatever they are built by, paths begin with a slash, and `parent`,
`file_name` and `join` are operations on the list of their components: without the last one, the last one, and with
more at the end.
-/
import CloudSync.Core.CloudPaths
import CloudSync.Lib.Segments

namespace CloudSync.CloudPath

open LastSeparator

/-- A composition of `new`, `root`, `parent` and `join`. -/
inductive Composition
  | new (path : Str)
  | root
  | parent (base : Composition)
  | join (base : Composition) (component : Str)

namespace Composition

/-- The path it makes, unless it takes the parent of the root. -/
def eval : Composition → Option CloudPath
  | .new path => some (CloudPath.new path)
  | .root => some CloudPath.root
  | .parent base => base.eval.bind CloudPath.parent
  | .join base component => base.eval.map fun p => p.join component

/-- What holds of new paths and of the root and is kept by `parent` and `join` holds of every path that is built. -/
theorem eval_induction {motive : CloudPath → Prop} (hnew : ∀ path, motive (CloudPath.new path))
    (hroot : motive CloudPath.root) (hparent : ∀ p q, motive p → p.parent = some q → motive q)
    (hjoin : ∀ p component, motive p → motive (p.join component)) :
    ∀ (e : Composition) {p : CloudPath}, e.eval = some p → motive p
  | .new path, _, h => Option.some.inj h ▸ hnew path
  | .root, _, h => Option.some.inj h ▸ hroot
  | .parent base, _, h => by
    obtain ⟨p, hp, hq⟩ := Option.bind_eq_some_iff.1 h
    exact hparent p _ (eval_induction hnew hroot hparent hjoin base hp) hq
  | .join base component, _, h => by
    obtain ⟨p, hp, rfl⟩ := Option.map_eq_some_iff.1 h
    exact hjoin p component (eval_induction hnew hroot hparent hjoin base hp)

end Composition

/-! ## Components -/

/-- The non-empty segments between slashes. -/
def comps (p : CloudPath) : List Str := segments '/' p.text

/-- The text begins with a slash. -/
def Rooted (p : CloudPath) : Prop := ∃ rest, p.text = '/' :: rest

theorem rooted_new (path : Str) : (new path).Rooted := new_head path

theorem rooted_root : root.Rooted := ⟨[], rfl⟩

theorem comps_root : root.comps = [] := segments_separators 1

/-- A rooted path consists of slashes, or has a last name with slashes after it. -/
theorem Rooted.shape {p : CloudPath} (h : p.Rooted) : (∃ n, p = ⟨List.replicate (n + 1) '/'⟩) ∨
    ∃ pre name n, name ≠ [] ∧ '/' ∉ name ∧ p = ⟨pre ++ '/' :: name ++ List.replicate n '/'⟩ := by
  obtain ⟨text⟩ := p
  obtain ⟨rest, rfl⟩ : ∃ rest, text = '/' :: rest := h
  have hshape : (∃ n, '/' :: rest = List.replicate (n + 1) '/') ∨ _ := exists_shape rest
  rcases hshape with ⟨n, heq⟩ | ⟨pre, name, n, hne, hno, heq⟩
  · exact .inl ⟨n, congrArg CloudPath.mk heq⟩
  · exact .inr ⟨pre, name, n, hne, hno, congrArg CloudPath.mk heq⟩

/-- The text before the last name is empty or begins with a slash too. -/
theorem Rooted.before {pre name : Str} {n : Nat}
    (h : (CloudPath.mk (pre ++ '/' :: name ++ List.replicate n '/')).Rooted) (hpre : pre ≠ []) :
    (CloudPath.mk pre).Rooted := by
  obtain ⟨c, rest, rfl⟩ := List.exists_cons_of_ne_nil hpre
  obtain ⟨after, heq⟩ := h
  exact ⟨rest, by rw [(List.cons.inj heq).1]⟩

/-! ## Parents -/

/-- The root has no parent. The parent of any other path is a part of its text, and has its components but the last. -/
theorem Rooted.parent_cases {p : CloudPath} (h : p.Rooted) : (p = root ∧ p.parent = none) ∨
    ∃ q, p.parent = some q ∧ q.Rooted ∧ q.text <+: p.text ∧ q.text.length < p.text.length ∧
      q.comps = p.comps.dropLast := by
  have hslash : root.text <+: p.text := by
    obtain ⟨rest, hrest⟩ := h
    exact ⟨rest, hrest.symm⟩
  rcases h.shape with ⟨n, rfl⟩ | ⟨pre, name, n, hne, hno, rfl⟩
  · rw [parent_slashes]
    by_cases hn : n = 0
    · rw [if_pos hn, hn]
      exact .inl ⟨rfl, rfl⟩
    · rw [if_neg hn]
      refine .inr ⟨root, rfl, rooted_root, hslash, ?_, ?_⟩
      · show 1 < (List.replicate (n + 1) '/').length
        rw [List.length_replicate]
        omega
      · rw [comps_root, comps, segments_separators, List.dropLast_nil]
  · have hname := List.length_pos_of_ne_nil hne
    have hcomps : (CloudPath.mk (pre ++ '/' :: name ++ List.replicate n '/')).comps.dropLast = segments '/' pre := by
      rw [comps, segments_shape hne hno, List.dropLast_concat]
    refine .inr ⟨_, parent_name hne hno pre n, ?_⟩
    rw [hcomps]
    split
    · rename_i hpre
      rw [comps_root, hpre, segments_nil]
      refine ⟨rooted_root, hpre ▸ hslash, ?_, rfl⟩
      show 1 < _
      simp only [List.length_append, List.length_cons]
      omega
    · rename_i hpre
      refine ⟨h.before hpre, ?_, ?_, rfl⟩
      · show pre <+: _
        rw [List.append_assoc]
        exact List.prefix_append _ _
      · show pre.length < _
        simp only [List.length_append, List.length_cons]
        omega

/-- A parent begins the text of its path, with a slash. -/
theorem Rooted.of_parent {p q : CloudPath} (h : p.Rooted) (hq : p.parent = some q) : q.Rooted ∧ q.text <+: p.text := by
  rcases h.parent_cases with ⟨-, hnone⟩ | ⟨q', hq', hrooted, hpart, -⟩
  · rw [hnone] at hq
    cases hq
  · rw [hq'] at hq
    obtain rfl := Option.some.inj hq
    exact ⟨hrooted, hpart⟩

/-- The file name of a path with components is the last of them. -/
theorem Rooted.fileName_eq {p : CloudPath} (h : p.Rooted) (hcomps : p.comps ≠ []) :
    p.fileName = some (p.comps.getLast hcomps) := by
  rcases h.shape with ⟨n, rfl⟩ | ⟨pre, name, n, hne, hno, rfl⟩
  · exact absurd (segments_separators (n + 1)) hcomps
  · have hroot : pre ++ '/' :: name ++ List.replicate n '/' ≠ ['/'] := shape_ne hne hno pre n 1
    have hlast : (CloudPath.mk (pre ++ '/' :: name ++ List.replicate n '/')).comps = segments '/' pre ++ [name] :=
      segments_shape hne hno pre n
    unfold fileName
    simp only [if_neg hroot]
    rw [trimEnd_replicate, (bare_name hne hno pre).trimEnd_eq, getLast?_splitOn hno]
    simp only [hlast, List.getLast_append_singleton]

/-! ## Joined paths -/

theorem comps_join (p : CloudPath) (component : Str) :
    (p.join component).comps = p.comps ++ segments '/' component := by
  unfold comps join
  rw [segments_append_cons, segments_trimEnd, segments_dropWhile]

/-- A joined path begins with the slash of its base, or with the slash that is added. -/
theorem Rooted.join {p : CloudPath} (h : p.Rooted) (component : Str) : (p.join component).Rooted := by
  obtain ⟨rest, hrest⟩ := h
  unfold CloudPath.join
  obtain ⟨slashes, hslashes⟩ : trimEnd '/' p.text <+: '/' :: rest := hrest ▸ List.rdropWhile_prefix _ _
  cases htrim : trimEnd '/' p.text with
  | nil => exact ⟨_, rfl⟩
  | cons c text =>
    rw [htrim] at hslashes
    exact ⟨_, by rw [(List.cons.inj hslashes).1]; rfl⟩

/-- Every path that is built begins with a slash. -/
theorem Composition.rooted (e : Composition) {p : CloudPath} (h : e.eval = some p) : p.Rooted :=
  e.eval_induction rooted_new rooted_root (fun _ _ hp hq => (hp.of_parent hq).1)
    (fun _ component hp => hp.join component) h

/-! ## Ancestors -/

/-- `parent` taken so many times. -/
def ancestor (p : CloudPath) : Nat → Option CloudPath
  | 0 => some p
  | n + 1 => (p.ancestor n).bind parent

theorem ancestor_parent {p q : CloudPath} (h : p.parent = some q) (n : Nat) : p.ancestor (n + 1) = q.ancestor n := by
  induction n with
  | zero => exact h
  | succ n ih =>
    show (p.ancestor (n + 1)).bind parent = _
    rw [ih]
    rfl

/-- The parents of a path end at the root, since each is shorter than the one before. -/
theorem Rooted.exists_root {p : CloudPath} (h : p.Rooted) : ∃ n, p.ancestor n = some root := by
  rcases h.parent_cases with ⟨rfl, -⟩ | ⟨q, hq, hrooted, -, hlt, -⟩
  · exact ⟨0, rfl⟩
  · obtain ⟨n, hn⟩ := hrooted.exists_root
    exact ⟨n + 1, (ancestor_parent hq n).trans hn⟩
termination_by p.text.length

/-- On every path that is built, `file_name` is the last component and `parent` drops it, `join` appends the segments
it is given, and the parents end at the root, which has none. -/
theorem component_algebra (e : Composition) {p : CloudPath} (hp : e.eval = some p) :
    (∀ hcomps : p.comps ≠ [], p.fileName = some (p.comps.getLast hcomps) ∧
      ∃ q, p.parent = some q ∧ q.comps = p.comps.dropLast) ∧
    (∀ component, (p.join component).comps = p.comps ++ segments '/' component) ∧
    ∃ n, p.ancestor n = some root ∧ p.ancestor (n + 1) = none := by
  have hrooted := e.rooted hp
  refine ⟨fun hcomps => ⟨hrooted.fileName_eq hcomps, ?_⟩, comps_join p, ?_⟩
  · rcases hrooted.parent_cases with ⟨rfl, -⟩ | ⟨q, hq, -, -, -, hlast⟩
    · exact absurd comps_root hcomps
    · exact ⟨q, hq, hlast⟩
  · obtain ⟨n, hn⟩ := hrooted.exists_root
    refine ⟨n, hn, ?_⟩
    show (p.ancestor n).bind parent = none
    rw [hn]
    rfl

/-- A path with slashes in a row, and a component joined to it that has more of them. -/
theorem component_algebra_sample :
    ∃ p, (Composition.join (.new "docs//2024/".toList) "/a//b.txt".toList).eval = some p ∧
      p.comps = ["docs".toList, "2024".toList, "a".toList, "b.txt".toList] ∧ p.fileName = some "b.txt".toList ∧
      (∃ q, p.parent = some q ∧ q.comps = ["docs".toList, "2024".toList, "a".toList]) ∧
      ∃ n, p.ancestor n = some root ∧ p.ancestor (n + 1) = none := by
  have heval : (Composition.join (.new "docs//2024/".toList) "/a//b.txt".toList).eval =
      some ⟨"/docs//2024/a//b.txt".toList⟩ := by decide +kernel
  have hcomps : (CloudPath.mk "/docs//2024/a//b.txt".toList).comps =
      ["docs".toList, "2024".toList, "a".toList, "b.txt".toList] := by decide +kernel
  obtain ⟨hlast, -, hroot⟩ := component_algebra _ heval
  obtain ⟨hname, q, hq, hdrop⟩ := hlast (by rw [hcomps]; exact List.cons_ne_nil _ _)
  refine ⟨_, heval, hcomps, ?_, ⟨q, hq, ?_⟩, hroot⟩
  · rw [hname]
    simp only [hcomps]
    rfl
  · rw [hdrop, hcomps]
    rfl

/-! ## Backslashes -/

/-- `join` neither adds a backslash nor takes one away. -/
theorem backslash_mem_join (p : CloudPath) (component : Str) :
    '\\' ∈ (p.join component).text ↔ '\\' ∈ p.text ∨ '\\' ∈ component := by
  have hne : '\\' ≠ '/' := by decide
  unfold join
  rw [List.mem_append, List.mem_cons, or_iff_right hne, mem_trimEnd hne, mem_dropWhile hne]

theorem backslash_notMem_new (path : Str) : '\\' ∉ (new path).text := backslash_notMem_slashed _

/-- A rooted path is the path of its own text when it has no backslash. -/
theorem Rooted.new_eq_iff {p : CloudPath} (h : p.Rooted) : new p.asStr = p ↔ '\\' ∉ p.text := by
  constructor
  · intro heq
    rw [← heq]
    exact backslash_notMem_new _
  · intro hclean
    obtain ⟨text⟩ := p
    obtain ⟨rest, rfl⟩ : ∃ rest, text = '/' :: rest := h
    show new ('/' :: rest) = _
    rw [new_slash, map_slashed_eq fun hmem => hclean (List.mem_cons_of_mem _ hmem)]

namespace Composition

/-- The paths made on the way, the last one among them. -/
def paths : Composition → List CloudPath
  | .new path => [CloudPath.new path]
  | .root => [CloudPath.root]
  | .parent base => base.paths ++ (Composition.parent base).eval.toList
  | .join base component => base.paths ++ (Composition.join base component).eval.toList

/-- The components that are joined. -/
def components : Composition → List Str
  | .new _ | .root => []
  | .parent base => base.components
  | .join base component => base.components ++ [component]

theorem mem_paths (e : Composition) {p : CloudPath} (h : e.eval = some p) : p ∈ e.paths := by
  cases e with
  | new path => exact List.mem_singleton.2 (Option.some.inj h).symm
  | root => exact List.mem_singleton.2 (Option.some.inj h).symm
  | parent base => exact List.mem_append_right _ (Option.mem_toList.2 h)
  | join base component => exact List.mem_append_right _ (Option.mem_toList.2 h)

/-- The paths made on the way are rooted. -/
theorem rooted_paths (e : Composition) {q : CloudPath} (h : q ∈ e.paths) : q.Rooted := by
  induction e with
  | new path => exact List.mem_singleton.1 h ▸ rooted_new path
  | root => exact List.mem_singleton.1 h ▸ rooted_root
  | parent base ih => exact (List.mem_append.1 h).elim ih fun hq => rooted _ (Option.mem_toList.1 hq)
  | join base component ih => exact (List.mem_append.1 h).elim ih fun hq => rooted _ (Option.mem_toList.1 hq)

/-- No path made on the way has a backslash exactly when no joined component has one. -/
theorem backslash_paths_iff (e : Composition) {p : CloudPath} (h : e.eval = some p) :
    (∀ q ∈ e.paths, '\\' ∉ q.text) ↔ ∀ component ∈ e.components, '\\' ∉ component := by
  induction e generalizing p with
  | new path =>
    refine iff_of_true (fun q hq => ?_) (fun c hc => by cases hc)
    rw [List.mem_singleton.1 hq]
    exact backslash_notMem_new path
  | root =>
    refine iff_of_true (fun q hq => ?_) (fun c hc => by cases hc)
    rw [List.mem_singleton.1 hq]
    decide
  | parent base ih =>
    obtain ⟨b, hb, hparent⟩ := Option.bind_eq_some_iff.1 h
    refine Iff.trans ⟨fun hall q hq => hall q (List.mem_append_left _ hq), fun hall q hq => ?_⟩ (ih hb)
    rcases List.mem_append.1 hq with hq | hq
    · exact hall q hq
    -- the text of the parent is part of that of the base
    · rw [h, Option.toList_some, List.mem_singleton] at hq
      subst hq
      have hpart := ((rooted base hb).of_parent hparent).2
      exact fun hmem => hall b (base.mem_paths hb) (hpart.subset hmem)
  | join base component ih =>
    obtain ⟨b, hb, rfl⟩ := Option.map_eq_some_iff.1 h
    show (∀ q ∈ base.paths ++ (Composition.join base component).eval.toList, _) ↔
      ∀ c ∈ base.components ++ [component], _
    rw [List.forall_mem_append, List.forall_mem_append, ih hb, h, Option.toList_some, List.forall_mem_singleton,
      List.forall_mem_singleton, backslash_mem_join, not_or]
    refine and_congr_right fun hall => and_iff_right ?_
    exact (ih hb).2 hall b (base.mem_paths hb)

end Composition

end CloudSync.CloudPath
