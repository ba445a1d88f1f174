/-
Unix paths as texts: components, `join`, and the place a path names once `.` and `..` are resolved
against a working directory (no symbolic links). A relative operand of `join` climbs so many levels
and then descends through so many names; from that its place is inside the directory it is joined
to exactly when it comes back down through the names it climbed past.
-/
import Mathlib.Tactic

namespace UnixPath

/-- The text of a path, and a name between two slashes. -/
abbrev Text := List Char

def isAbsolute (p : Text) : Bool := p.head? = some '/'

/-- The components of a path; empty and `.` segments are not components. -/
def components (p : Text) : List Text := (p.splitOn '/').filter fun s => s ≠ [] ∧ s ≠ ['.']

/-- One component from a directory, given by the names down to it. At the root `..` stays. -/
def step (dir : List Text) (c : Text) : List Text := if c = ['.', '.'] then dir.dropLast else dir ++ [c]

def walk (dir : List Text) (cs : List Text) : List Text := cs.foldl step dir

/-- The place a path names, from the working directory `cwd`. -/
def resolve (cwd : List Text) (p : Text) : List Text := walk (if isAbsolute p then [] else cwd) (components p)

/-- `Path::join`: an absolute operand replaces the path. -/
def join (p q : Text) : Text :=
  if isAbsolute q then q else if p ≠ [] ∧ p.getLast? ≠ some '/' then p ++ '/' :: q else p ++ q

/-- Segments that are no components. -/
def isBlank (s : Text) : Bool := s = [] ∨ s = ['.']

/-- `Path::parent`: the path without its last component, and nothing for the root and the empty path. -/
def parent (p : Text) : Option Text :=
  match (p.splitOn '/').reverse.dropWhile isBlank with
  -- only a leading `.` is a component here
  | [] => if isAbsolute p ∨ p = [] then none else some []
  | _ :: rest =>
    match rest.dropWhile isBlank with
    | [] => some (if isAbsolute p then ['/'] else if rest.getLast? = some ['.'] then ['.'] else [])
    | front => some (['/'].intercalate front.reverse)

/-- The place of `p` is the place of `root` or below it. -/
def Inside (cwd : List Text) (root p : Text) : Prop := resolve cwd root <+: resolve cwd p

instance (cwd : List Text) (root p : Text) : Decidable (Inside cwd root p) := by unfold Inside; infer_instance

/-! ## Joined paths -/

theorem components_slash (p q : Text) : components (p ++ '/' :: q) = components p ++ components q := by
  unfold components
  rw [List.splitOn_append_cons_self, List.filter_append]

theorem components_nil : components [] = [] := rfl

/-- The components of a joined path are those of both. -/
theorem components_join {p q : Text} (hq : isAbsolute q = false) :
    components (join p q) = components p ++ components q := by
  unfold join
  rw [hq, if_neg Bool.false_ne_true]
  split
  · exact components_slash p q
  · rename_i h
    rcases List.eq_nil_or_concat p with rfl | ⟨p, c, rfl⟩
    · rfl
    · -- a trailing slash ends a segment, and the empty segment after it is no component
      have hc : c = '/' := by
        by_contra hc
        exact h ⟨by simp, by simpa using hc⟩
      subst hc
      rw [List.concat_eq_append, List.append_assoc, List.singleton_append, components_slash, components_slash,
        components_nil, List.append_nil]

theorem isAbsolute_join {p q : Text} (hp : p ≠ []) (hq : isAbsolute q = false) :
    isAbsolute (join p q) = isAbsolute p := by
  unfold join
  rw [hq, if_neg Bool.false_ne_true]
  cases p with
  | nil => exact absurd rfl hp
  | cons c p => split <;> rfl

/-- A relative path joined to a directory is walked from it. -/
theorem resolve_join (cwd : List Text) {p q : Text} (hq : isAbsolute q = false) :
    resolve cwd (join p q) = walk (resolve cwd p) (components q) := by
  unfold resolve
  rw [components_join hq]
  by_cases hp : p = []
  · subst hp
    have hjoin : join [] q = q := by
      unfold join; rw [hq]; simp
    rw [hjoin, hq]
    rfl
  · rw [isAbsolute_join hp hq]
    unfold walk
    rw [List.foldl_append]

theorem resolve_absolute (cwd : List Text) {p q : Text} (hq : isAbsolute q = true) :
    resolve cwd (join p q) = walk [] (components q) := by
  unfold join resolve
  rw [if_pos hq, if_pos hq]

/-! ## Climbing and descending -/

/-- A list of components as so many levels up and then down through the names. -/
def reduce (cs : List Text) : Nat × List Text :=
  cs.foldl (fun (ups, names) c =>
    if c = ['.', '.'] then if names = [] then (ups + 1, []) else (ups, names.dropLast) else (ups, names ++ [c])) (0, [])

/-- How many levels the components climb above where they start. -/
def ups (cs : List Text) : Nat := (reduce cs).1

/-- The names they then descend through. -/
def names (cs : List Text) : List Text := (reduce cs).2

theorem reduce_snoc (cs : List Text) (c : Text) : reduce (cs ++ [c]) =
    if c = ['.', '.'] then if names cs = [] then (ups cs + 1, []) else (ups cs, (names cs).dropLast)
    else (ups cs, names cs ++ [c]) := by
  unfold reduce
  rw [List.foldl_append]; rfl

/-- Walking is climbing and then descending. -/
theorem walk_eq (dir cs : List Text) : walk dir cs = dir.take (dir.length - ups cs) ++ names cs := by
  induction cs using List.reverseRecOn with
  | nil => simp [walk, ups, names, reduce]
  | append_singleton cs c ih =>
    have hwalk : walk dir (cs ++ [c]) = step (walk dir cs) c := by
      unfold walk; rw [List.foldl_append]; rfl
    have hsnoc := reduce_snoc cs c
    rw [hwalk, ih, step]
    by_cases hc : c = ['.', '.']
    · by_cases hnames : names cs = []
      -- `..` with no name to go back over climbs one level more
      · rw [if_pos hc, if_pos hnames] at hsnoc
        have h1 : ups (cs ++ [c]) = ups cs + 1 := by rw [ups, hsnoc]
        have h2 : names (cs ++ [c]) = [] := by rw [names, hsnoc]
        rw [if_pos hc, hnames, h1, h2, List.append_nil, List.append_nil, List.dropLast_eq_take, List.take_take,
          List.length_take]
        congr 1
        omega
      -- `..` takes back the last name
      · rw [if_pos hc, if_neg hnames] at hsnoc
        have h1 : ups (cs ++ [c]) = ups cs := by rw [ups, hsnoc]
        have h2 : names (cs ++ [c]) = (names cs).dropLast := by rw [names, hsnoc]
        rw [if_pos hc, h1, h2, List.dropLast_append_of_ne_nil hnames]
    · rw [if_neg hc] at hsnoc
      have h1 : ups (cs ++ [c]) = ups cs := by rw [ups, hsnoc]
      have h2 : names (cs ++ [c]) = names cs ++ [c] := by rw [names, hsnoc]
      rw [if_neg hc, h1, h2, List.append_assoc]

/-- The components come back down through the names of `dir` they climb past. -/
def ComesBack (dir cs : List Text) : Prop := dir.drop (dir.length - ups cs) <+: names cs

instance (dir cs : List Text) : Decidable (ComesBack dir cs) := by unfold ComesBack; infer_instance

/-- A walk from a directory ends inside it exactly when it comes back down to it. -/
theorem prefix_walk_iff (dir cs : List Text) : dir <+: walk dir cs ↔ ComesBack dir cs := by
  unfold ComesBack
  rw [walk_eq]
  nth_rewrite 1 [← List.take_append_drop (dir.length - ups cs) dir]
  exact List.prefix_append_right_inj _

/-- Where a relative operand of `join` lands. -/
theorem inside_join_iff (cwd : List Text) {root q : Text} (hq : isAbsolute q = false) :
    Inside cwd root (join root q) ↔ ComesBack (resolve cwd root) (components q) := by
  unfold Inside
  rw [resolve_join cwd hq, prefix_walk_iff]

/-- Where an absolute operand of `join` lands. -/
theorem inside_join_absolute (cwd : List Text) {root q : Text} (hq : isAbsolute q = true) :
    Inside cwd root (join root q) ↔ resolve cwd root <+: names (components q) := by
  unfold Inside
  rw [resolve_absolute cwd hq, walk_eq, List.take_nil, List.nil_append]

/-- Components without `..` climb nowhere. -/
theorem reduce_of_no_parent {cs : List Text} (h : ∀ c ∈ cs, c ≠ ['.', '.']) : reduce cs = (0, cs) := by
  induction cs using List.reverseRecOn with
  | nil => rfl
  | append_singleton cs c ih =>
    have ih := ih fun x hx => h x (List.mem_append_left _ hx)
    have hups : ups cs = 0 := congrArg Prod.fst ih
    have hnames : names cs = cs := congrArg Prod.snd ih
    rw [reduce_snoc, if_neg (h c (List.mem_append_right _ (List.mem_singleton_self c))), hups, hnames]

theorem comesBack_of_no_parent (dir : List Text) {cs : List Text} (h : ∀ c ∈ cs, c ≠ ['.', '.']) :
    ComesBack dir cs := by
  have hups : ups cs = 0 := congrArg Prod.fst (reduce_of_no_parent h)
  unfold ComesBack
  rw [hups, Nat.sub_zero, List.drop_length]
  exact List.nil_prefix

/-! ## Leading slashes -/

theorem isAbsolute_dropWhile (p : Text) : isAbsolute (p.dropWhile (· = '/')) = false := by
  unfold isAbsolute
  cases h : p.dropWhile (· = '/') with
  | nil => rfl
  | cons c rest =>
    have hc : ¬ (decide (c = '/')) = true := by
      have := List.head_dropWhile_not (fun x => decide (x = '/')) (l := p) (w := by rw [h]; simp)
      simpa [h] using this
    simpa using hc

/-- Leading slashes are no components. -/
theorem components_dropWhile : ∀ p : Text, components (p.dropWhile (· = '/')) = components p
  | [] => rfl
  | c :: p => by
    by_cases hc : c = '/'
    · subst hc
      rw [List.dropWhile_cons_of_pos (by simp), components_dropWhile p]
      exact (components_slash [] p).symm
    · rw [List.dropWhile_cons_of_neg (by simpa using hc)]

/-! ## Components as texts -/

/-- `Path::components`, each as its text: a leading `/` or `.` is one, and so is every name and `..`. -/
def parts (p : Text) : List Text :=
  (if isAbsolute p then [['/']] else if (p.splitOn '/').head? = some ['.'] then [['.']] else []) ++ components p

/-- `Path::strip_prefix`: the components after those of the base. -/
def stripPrefix (base p : Text) : Option (List Text) :=
  if parts base <+: parts p then some ((parts p).drop (parts base).length) else none

/-- `collect` into a `PathBuf`: every component is pushed. -/
def collect (cs : List Text) : Text := cs.foldl join []

/-- A text that is one component, a name or `..`. -/
def Single (s : Text) : Prop := s ≠ [] ∧ '/' ∉ s ∧ s ≠ ['.']

instance (s : Text) : Decidable (Single s) := by unfold Single; infer_instance

theorem Single.isAbsolute {s : Text} (h : Single s) : isAbsolute s = false := by
  unfold UnixPath.isAbsolute
  refine decide_eq_false fun hs => h.2.1 ?_
  exact List.mem_of_mem_head? hs

theorem Single.splitOn {s : Text} (h : Single s) : s.splitOn '/' = [s] := List.splitOn_eq_singleton h.2.1

theorem Single.components {s : Text} (h : Single s) : components s = [s] := by
  unfold UnixPath.components
  rw [h.splitOn, List.filter_cons_of_pos (by simpa using ⟨h.1, h.2.2⟩), List.filter_nil]

theorem Single.parts {s : Text} (h : Single s) : parts s = [s] := by
  have hdot : ¬ some s = some ['.'] := fun heq => h.2.2 (Option.some.inj heq)
  unfold UnixPath.parts
  rw [h.isAbsolute, h.splitOn, h.components, if_neg Bool.false_ne_true, List.head?_cons, if_neg hdot]
  rfl

theorem slash_notMem_of_splitOn {p c : Text} (hc : c ∈ p.splitOn '/') : '/' ∉ c := by
  induction p generalizing c with
  | nil =>
    rw [List.mem_singleton.1 hc]
    exact List.not_mem_nil
  | cons x p ih =>
    rw [List.splitOn_cons_eq_if_modifyHead] at hc
    split at hc
    · rcases List.mem_cons.1 hc with rfl | hc
      · exact List.not_mem_nil
      · exact ih hc
    · rename_i hx
      cases hsplit : p.splitOn '/' with
      | nil => exact absurd hsplit (List.splitOn_ne_nil _ _)
      | cons d ds =>
        rw [hsplit, List.modifyHead_cons] at hc
        rcases List.mem_cons.1 hc with rfl | hc
        · have hd := ih (hsplit ▸ List.mem_cons_self)
          simp only [List.mem_cons, not_or]
          exact ⟨fun heq => hx (by rw [← heq]; rfl), hd⟩
        · exact ih (hsplit ▸ List.mem_cons_of_mem _ hc)

theorem single_of_mem_components {p c : Text} (hc : c ∈ components p) : Single c := by
  unfold components at hc
  obtain ⟨hmem, hne⟩ := List.mem_filter.1 hc
  have hne : c ≠ [] ∧ c ≠ ['.'] := by simpa using hne
  exact ⟨hne.1, slash_notMem_of_splitOn hmem, hne.2⟩

theorem mem_intercalate {sep : Text} {cs : List Text} {c : Text} (hc : c ∈ cs) {x : Char} (hx : x ∈ c) :
    x ∈ sep.intercalate cs := by
  induction cs with
  | nil => cases hc
  | cons d ds ih =>
    by_cases hds : ds = []
    · subst hds
      rw [List.intercalate_singleton]
      rwa [List.mem_singleton.1 hc] at hx
    · rw [List.intercalate_cons_of_ne_nil hds]
      simp only [List.mem_append]
      rcases List.mem_cons.1 hc with rfl | hc
      · exact .inl (.inl hx)
      · exact .inr (ih hc)

theorem exists_mem_of_mem_intercalate {sep : Text} {cs : List Text} {x : Char} (hsep : x ∉ sep)
    (hx : x ∈ sep.intercalate cs) : ∃ c ∈ cs, x ∈ c := by
  induction cs with
  | nil => cases hx
  | cons d ds ih =>
    by_cases hds : ds = []
    · subst hds
      rw [List.intercalate_singleton] at hx
      exact ⟨d, List.mem_cons_self, hx⟩
    · rw [List.intercalate_cons_of_ne_nil hds] at hx
      simp only [List.mem_append] at hx
      rcases hx with (hx | hx) | hx
      · exact ⟨d, List.mem_cons_self, hx⟩
      · exact absurd hx hsep
      · obtain ⟨c, hc, hxc⟩ := ih hx
        exact ⟨c, List.mem_cons_of_mem _ hc, hxc⟩

/-- The characters of a component are characters of its path. -/
theorem mem_of_mem_components {p c : Text} (hc : c ∈ components p) {x : Char} (hx : x ∈ c) : x ∈ p := by
  unfold components at hc
  have hmem : x ∈ ['/'].intercalate _ := mem_intercalate (List.mem_filter.1 hc).1 hx
  rwa [List.intercalate_splitOn] at hmem

/-- Names with slashes between them have these names as components. -/
theorem components_intercalate {cs : List Text} (h : ∀ c ∈ cs, Single c) : components (['/'].intercalate cs) = cs := by
  by_cases hne : cs = []
  · subst hne
    rfl
  · unfold components
    rw [List.splitOn_intercalate '/' (fun c hc => (h c hc).2.1) hne]
    refine List.filter_eq_self.2 fun c hc => ?_
    simpa using ⟨(h c hc).1, (h c hc).2.2⟩

/-- Collected components are their names with slashes between them. -/
theorem collect_eq {cs : List Text} (h : ∀ c ∈ cs, Single c) : collect cs = ['/'].intercalate cs := by
  have hfold : ∀ (cs : List Text) (p : Text), (∀ c ∈ cs, Single c) → p ≠ [] → p.getLast? ≠ some '/' →
      cs.foldl join p = ['/'].intercalate (p :: cs) := by
    intro cs
    induction cs with
    | nil => intro p _ _ _; exact (List.intercalate_singleton).symm
    | cons c cs ih =>
      intro p hcs hp hlast
      obtain ⟨hc, hcs⟩ := List.forall_mem_cons.1 hcs
      have hjoin : join p c = p ++ '/' :: c := by
        unfold join
        rw [hc.isAbsolute, if_neg Bool.false_ne_true, if_pos ⟨hp, hlast⟩]
      have hlast' : (p ++ '/' :: c).getLast? ≠ some '/' := by
        rw [List.getLast?_append_of_ne_nil _ (List.cons_ne_nil _ _), List.getLast?_cons_of_ne_nil hc.1]
        exact fun heq => hc.2.1 (List.mem_of_getLast? heq)
      rw [List.foldl_cons, hjoin, ih _ hcs (List.append_ne_nil_of_left_ne_nil hp _) hlast', List.intercalate_cons_cons]
      cases cs with
      | nil => rw [List.intercalate_singleton, List.intercalate_singleton, List.append_assoc, List.singleton_append]
      | cons d cs =>
        rw [List.intercalate_cons_cons, List.intercalate_cons_cons]
        simp only [List.append_assoc, List.cons_append, List.nil_append]
  cases cs with
  | nil => rfl
  | cons c cs =>
    obtain ⟨hc, hcs⟩ := List.forall_mem_cons.1 h
    have hfirst : join [] c = c := by
      unfold join
      rw [hc.isAbsolute, if_neg Bool.false_ne_true, if_neg (fun hne => hne.1 rfl), List.nil_append]
    unfold collect
    rw [List.foldl_cons, hfirst]
    exact hfold cs c hcs hc.1 fun heq => hc.2.1 (List.mem_of_getLast? heq)

/-- Only the first part of a path can be its leading `/` or `.`. -/
theorem single_of_mem_tail_parts {p c : Text} (hc : c ∈ (parts p).tail) : Single c := by
  unfold parts at hc
  split at hc
  · exact single_of_mem_components hc
  · split at hc
    · exact single_of_mem_components hc
    · exact single_of_mem_components (List.mem_of_mem_tail hc)

theorem parts_eq_nil {p : Text} : parts p = [] ↔ p = [] := by
  refine ⟨fun h => ?_, fun h => by rw [h]; rfl⟩
  unfold parts at h
  by_cases habs : isAbsolute p = true
  · rw [if_pos habs] at h
    cases h
  rw [if_neg habs] at h
  by_cases hdot : (p.splitOn '/').head? = some ['.']
  · rw [if_pos hdot] at h
    cases h
  rw [if_neg hdot, List.nil_append] at h
  -- the first segment is no component, so it is empty, and then the path is
  obtain ⟨s, ss, hsplit⟩ := List.exists_cons_of_ne_nil (List.splitOn_ne_nil '/' p)
  rw [hsplit, List.head?_cons, Option.some.injEq] at hdot
  have hs : s = [] := by
    by_contra hs
    have hmem : s ∈ components p := by
      unfold components
      rw [hsplit]
      exact List.mem_filter.2 ⟨List.mem_cons_self, by simpa using ⟨hs, hdot⟩⟩
    rw [h] at hmem
    cases hmem
  have hp : ['/'].intercalate (p.splitOn '/') = p := List.intercalate_splitOn '/'
  rw [hsplit, hs] at hp
  by_cases hss : ss = []
  · rw [← hp, hss]
    rfl
  · exfalso
    rw [List.intercalate_cons_of_ne_nil hss] at hp
    rw [← hp] at habs
    exact habs rfl

/-- A joined path starts as the first one. -/
theorem parts_join {p q : Text} (hp : p ≠ []) (hq : isAbsolute q = false) :
    parts (join p q) = parts p ++ components q := by
  have hhead : ((join p q).splitOn '/').head? = (p.splitOn '/').head? := by
    unfold join
    rw [hq, if_neg Bool.false_ne_true]
    split
    · rw [List.splitOn_append_cons_self, List.head?_append_of_ne_nil _ (List.splitOn_ne_nil _ _)]
    · rename_i h
      obtain ⟨p, c, rfl⟩ := (List.eq_nil_or_concat p).resolve_left hp
      have hc : c = '/' := by
        by_contra hc
        exact h ⟨by simp, by simpa using hc⟩
      subst hc
      rw [List.concat_eq_append, List.append_assoc, List.singleton_append, List.splitOn_append_cons_self,
        List.splitOn_append_cons_self, List.head?_append_of_ne_nil _ (List.splitOn_ne_nil _ _),
        List.head?_append_of_ne_nil _ (List.splitOn_ne_nil _ _)]
  unfold parts
  rw [isAbsolute_join hp hq, hhead, components_join hq, List.append_assoc]

end UnixPath
