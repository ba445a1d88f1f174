/-
Reuse of inode numbers. The counter forgets the numbers above the greatest stored one: while no start
of the process finds a returned number above it, a number goes to one file id, and a start that finds
one can hand it out again.
-/
import CloudSync.Vfs.Inodes
import Mathlib.Data.Fintype.EquivFin

namespace CloudSync

namespace InodeSession

/-- A number once returned for a file id is never returned for another. -/
def NoRecycling (s : InodeSession) : Prop := ∀ p ∈ s.returned, ∀ q ∈ s.returned, p.2 = q.2 → p.1 = q.1

/-- No returned number is above the greatest stored one. -/
def Kept (s : InodeSession) : Prop := ∀ p ∈ s.returned, p.2 ≤ s.maxInode

/-- A start finds the returned numbers kept, and an allocation leaves the counter within 64 bits. -/
def Safe (s : InodeSession) : InodeAction → Prop
  | .restart .. => s.Kept
  | .getOrAllocate .. => ∀ next, s.nextInode = some next → next.toNat + 1 < 2 ^ 64
  | .remove .. => True

instance (s : InodeSession) : Decidable s.NoRecycling :=
  inferInstanceAs (Decidable (∀ p ∈ s.returned, ∀ q ∈ s.returned, p.2 = q.2 → p.1 = q.1))

instance (s : InodeSession) : DecidablePred s.Safe
  | .restart .. => inferInstanceAs (Decidable (∀ p ∈ s.returned, p.2 ≤ s.maxInode))
  | .getOrAllocate .. => @Option.decidableForallMem UInt64 (fun next => next.toNat + 1 < 2 ^ 64) _ s.nextInode
  | .remove .. => isTrue trivial

/-- The numbers given so far: that of the root, and those returned. -/
def given (s : InodeSession) : List (FileId × UInt64) := (⟨rootFileId⟩, fuseRootInode) :: s.returned

/-- A given number belongs to one file id, stored numbers are given ones, and the counter is above them. -/
structure Unmixed (s : InodeSession) : Prop extends Rooted s where
  functional : ∀ p ∈ s.given, ∀ q ∈ s.given, p.2 = q.2 → p.1 = q.1
  stored : ∀ r ∈ s.db.rows, (⟨r.fileId⟩, r.inode.toUInt64) ∈ s.given
  below : ∀ next, s.nextInode = some next → ∀ p ∈ s.given, p.2.toNat < next.toNat
  unused : s.db.rows = [] → s.returned = []

theorem start_unmixed : start.Unmixed where
  toRooted := start_rooted
  functional p hp q hq _ := by rw [List.mem_singleton.1 hp, List.mem_singleton.1 hq]
  stored _ hr := by cases hr
  below _ hnext := by cases hnext
  unused _ := rfl

/-- A start that finds the returned numbers kept sets the counter above them. -/
theorem Unmixed.given_lt_restored {s : InodeSession} (h : s.Unmixed) (hkept : s.Kept) {p : FileId × UInt64}
    (hp : p ∈ s.given) : p.2.toNat < s.restored.toNat := by
  obtain ⟨hone, hmax, -⟩ := h.restored
  rcases List.mem_cons.1 hp with rfl | hp
  · exact hone
  · have := UInt64.le_iff_toNat_le.1 (hkept p hp)
    omega

theorem Unmixed.moves {s s' : InodeSession} {a : InodeAction} (h : s.Unmixed) (hroot : KeepsRoot a) (hsafe : s.Safe a)
    (hm : s.Moves a s') : s'.Unmixed := by
  have hrooted := h.toRooted.moves hroot hm
  cases hm with
  | idle => exact h
  | stopped max select insert =>
    exact ⟨hrooted, h.functional, h.stored, fun next hnext => (by cases hnext), h.unused⟩
  | started max select insert r hr hid =>
    refine ⟨hrooted, h.functional, h.stored, ?_, h.unused⟩
    rintro next ⟨⟩ p hp
    exact h.given_lt_restored hsafe hp
  | rooted max select insert db hno hrows =>
    refine ⟨hrooted, h.functional, fun r hr => ?_, ?_, fun hnil => ?_⟩
    · rw [hrows, h.nil_of_no_root hno] at hr
      rw [List.mem_singleton.1 hr]
      exact List.mem_cons_self
    · rintro next ⟨⟩ p hp
      exact h.given_lt_restored hsafe hp
    · exact h.unused (h.nil_of_no_root hno)
  | found fileId select insert next hnext r hr hid =>
    -- the number was given to this file id before
    have hgiven : ∀ p, p ∈ (⟨rootFileId⟩, fuseRootInode) :: (s.returned ++ [(fileId, r.inode.toUInt64)]) →
        p ∈ s.given := by
      intro p hp
      rcases List.mem_append.1 (List.cons_append ▸ hp) with hp | hp
      · exact hp
      · rw [List.mem_singleton.1 hp]
        have := h.stored r hr
        rwa [hid] at this
    refine ⟨hrooted, fun p hp q hq => h.functional p (hgiven p hp) q (hgiven q hq), fun r' hr' => ?_,
      fun next' hnext' p hp => h.below next' hnext' p (hgiven p hp), fun hnil => ?_⟩
    · exact List.mem_append_left [(fileId, r.inode.toUInt64)] (h.stored r' hr')
    · rw [show s.db.rows = [] from hnil] at hr
      cases hr
  | skipped fileId select insert next hnext =>
    refine ⟨hrooted, h.functional, h.stored, ?_, h.unused⟩
    rintro next' ⟨⟩ p hp
    have := h.below next hnext p hp
    rw [toNat_add_one (hsafe next hnext)]
    omega
  | allocated fileId select insert next hnext db hno hrows =>
    -- the number of the counter is new
    have hbelow := h.below next hnext
    have hgiven : ∀ p, p ∈ (⟨rootFileId⟩, fuseRootInode) :: (s.returned ++ [(fileId, next)]) →
        p ∈ s.given ∨ p = (fileId, next) := by
      intro p hp
      exact (List.mem_append.1 (List.cons_append ▸ hp)).imp id List.mem_singleton.1
    refine ⟨hrooted, fun p hp q hq heq => ?_, fun r hr => ?_, ?_, fun hnil => ?_⟩
    · rcases hgiven p hp with hp | rfl <;> rcases hgiven q hq with hq | rfl
      · exact h.functional p hp q hq heq
      · exact absurd (hbelow p hp) (by rw [heq]; exact Nat.lt_irrefl _)
      · exact absurd (hbelow q hq) (by rw [← heq]; exact Nat.lt_irrefl _)
      · rfl
    · rw [hrows] at hr
      rcases List.mem_append.1 hr with hr | hr
      · exact List.mem_append_left [(fileId, next)] (h.stored r hr)
      · rw [List.mem_singleton.1 hr]
        exact List.mem_append_right s.given List.mem_cons_self
    · rintro next' ⟨⟩ p hp
      rw [toNat_add_one (hsafe next hnext)]
      rcases hgiven p hp with hp | rfl
      · have := hbelow p hp
        omega
      · exact Nat.lt_succ_self _
    · rw [show db.rows = [] from hnil] at hrows
      exact absurd hrows.symm (List.append_ne_nil_of_right_ne_nil _ (List.cons_ne_nil _ _))
  | removed fileId hrunning =>
    refine ⟨hrooted, h.functional, fun r hr => h.stored r (InodesTable.mem_delete.1 hr).1, h.below, fun hnil => ?_⟩
    have hmem := hrooted.running hrunning
    rw [hnil] at hmem
    cases hmem

theorem run_unmixed {actions : List InodeAction} (hroot : ∀ a ∈ actions, KeepsRoot a)
    (hsafe : ∀ before a after, actions = before ++ a :: after → (start.run before).Safe a) :
    (start.run actions).Unmixed := by
  induction actions using List.reverseRecOn with
  | nil => exact start_unmixed
  | append_singleton before a ih =>
    have hbefore := ih (fun b hb => hroot b (List.mem_append_left _ hb)) fun bs b cs hbs =>
      hsafe bs b (cs ++ [a]) (by rw [hbs, List.append_assoc, List.cons_append])
    rw [run_concat]
    exact hbefore.moves (hroot a List.mem_concat_self) (hsafe before a [] rfl) (step_moves _ a)

theorem Unmixed.noRecycling {s : InodeSession} (h : s.Unmixed) : s.NoRecycling :=
  fun p hp q hq => h.functional p (List.mem_cons_of_mem _ hp) q (List.mem_cons_of_mem _ hq)

/-! ## A forgotten number is handed out again -/

theorem Moves.mem_returned {s s' : InodeSession} {a : InodeAction} {p : FileId × UInt64} (hm : s.Moves a s')
    (hp : p ∈ s.returned) : p ∈ s'.returned := by
  cases hm with
  | idle | stopped | started | rooted | skipped | removed => exact hp
  | found | allocated => exact List.mem_append_left _ hp

theorem run_mem_returned {s : InodeSession} {actions : List InodeAction} {p : FileId × UInt64}
    (hp : p ∈ s.returned) : p ∈ (s.run actions).returned := by
  induction actions generalizing s with
  | nil => exact hp
  | cons a actions ih => exact ih ((step_moves s a).mem_returned hp)

/-- An allocation for a file id without a number, with no failure: the counter moves on, and the file
gets its number unless a row has it. -/
theorem step_fresh {s : InodeSession} {next : UInt64} {fileId : FileId} (hnext : s.nextInode = some next)
    (hfresh : ∀ r ∈ s.db.rows, r.fileId ≠ fileId.val) :
    (s.step (.getOrAllocate fileId none none)).nextInode = some (next + 1) ∧
      ((s.step (.getOrAllocate fileId none none)).db.rows = s.db.rows ∨
        (s.step (.getOrAllocate fileId none none)).db.rows = s.db.rows ++ [⟨next.toInt64, fileId.val⟩]) ∧
      ((∀ r ∈ s.db.rows, r.inode ≠ next.toInt64) →
        (fileId, next) ∈ (s.step (.getOrAllocate fileId none none)).returned) := by
  obtain ⟨db, _, returned⟩ := s
  cases hnext
  have hids : fileId.val ∉ db.rows.map InodeRow.fileId := fun hmem => by
    obtain ⟨r, hr, hid⟩ := List.mem_map.1 hmem
    exact hfresh r hr hid
  simp only [step, InodeManager.getOrAllocate, getOrInsertInode, getInodeByFileId,
    InodesTable.rowOf_eq_none.2 hids, Option.map_none, insertInode, InodesTable.insert]
  by_cases hinode : next.toInt64 ∈ db.rows.map InodeRow.inode
  · rw [dif_pos (.inl hinode)]
    obtain ⟨r, hr, heq⟩ := List.mem_map.1 hinode
    exact ⟨rfl, .inl rfl, fun hno => absurd heq (hno r hr)⟩
  · rw [dif_neg (fun h => h.elim hinode hids)]
    exact ⟨rfl, .inr rfl, fun _ => List.mem_concat_self⟩

theorem exists_fresh (db : InodesTable) (fileId : FileId) :
    ∃ f : FileId, f ≠ fileId ∧ ∀ r ∈ db.rows, r.fileId ≠ f.val := by
  classical
  obtain ⟨str, hstr⟩ := Infinite.exists_notMem_finset (fileId.val :: db.rows.map InodeRow.fileId).toFinset
  rw [List.mem_toFinset, List.mem_cons, not_or] at hstr
  refine ⟨⟨str⟩, fun h => hstr.1 (by rw [← h]), fun r hr hid => hstr.2 (List.mem_map.2 ⟨r, hr, hid⟩)⟩

/-- Allocations lead the counter to any number that is not stored. -/
theorem exists_reissue (fileId : FileId) (inode : UInt64) (n : Nat) {s : InodeSession} {next : UInt64}
    (hnext : s.nextInode = some next) (hn : inode.toNat = next.toNat + n)
    (hfree : ∀ r ∈ s.db.rows, r.inode ≠ inode.toInt64) :
    ∃ actions f, (∀ a ∈ actions, KeepsRoot a) ∧ f ≠ fileId ∧ (f, inode) ∈ (s.run actions).returned := by
  induction n generalizing s next with
  | zero =>
    obtain ⟨f, hne, hfresh⟩ := exists_fresh s.db fileId
    have heq : inode = next := UInt64.toNat_inj.1 hn
    refine ⟨[.getOrAllocate f none none], f, fun a ha => ?_, hne, ?_⟩
    · rw [List.mem_singleton.1 ha]
      trivial
    · rw [heq] at hfree ⊢
      exact (step_fresh hnext hfresh).2.2 hfree
  | succ n ih =>
    obtain ⟨f, -, hfresh⟩ := exists_fresh s.db fileId
    obtain ⟨hnext', hrows, -⟩ := step_fresh hnext hfresh
    have hlt := inode.toNat_lt
    have hsucc : (next + 1).toNat = next.toNat + 1 := toNat_add_one (by omega)
    obtain ⟨actions, g, hkeeps, hne, hmem⟩ := ih hnext' (by rw [hsucc]; omega) fun r hr => by
      rcases hrows with h | h
      · exact hfree r (h ▸ hr)
      · rw [h] at hr
        rcases List.mem_append.1 hr with hr | hr
        · exact hfree r hr
        · rw [List.mem_singleton.1 hr]
          exact fun heq => by have := congrArg UInt64.toNat (toInt64_inj.1 heq); omega
    refine ⟨.getOrAllocate f none none :: actions, g, fun a ha => ?_, hne, hmem⟩
    rcases List.mem_cons.1 ha with rfl | ha
    · trivial
    · exact hkeeps a ha

theorem Rooted.step_restart {s : InodeSession} (h : s.Rooted) :
    (s.step (.restart none none none)).nextInode = some s.restored ∧
      (s.step (.restart none none none)).returned = s.returned ∧
      ∀ r ∈ (s.step (.restart none none none)).db.rows, r ∈ s.db.rows ∨ r = rootRow := by
  simp only [step, InodeManager.new, getMaxInode, getOrInsertInode, getInodeByFileId]
  cases hrow : s.db.rowOf rootFileId with
  | some r => exact ⟨rfl, rfl, fun r hr => .inl hr⟩
  | none =>
    have hno := InodesTable.rowOf_eq_none.1 hrow
    have hnil : s.db.rows = [] := h.nil_of_no_root fun r hr hid => hno (List.mem_map.2 ⟨r, hr, hid⟩)
    have hnew : ¬ (fuseRootInode.toInt64 ∈ s.db.rows.map InodeRow.inode ∨
        rootFileId ∈ s.db.rows.map InodeRow.fileId) := by
      rw [hnil]
      simp only [List.map_nil, List.not_mem_nil, or_self, not_false_eq_true]
    simp only [Option.map_none, insertInode, InodesTable.insert]
    rw [dif_neg hnew]
    exact ⟨rfl, rfl, fun r hr => (List.mem_append.1 hr).imp id List.mem_singleton.1⟩

theorem rootRow_of_root {s : InodeSession} (h : s.Rooted) {r : InodeRow} (hr : r ∈ s.db.rows)
    (hid : r.fileId = rootFileId) : r = rootRow := by
  have hmem : rootRow ∈ s.db.rows := h.root.resolve_left fun hnil => by rw [hnil] at hr; cases hr
  exact List.inj_on_of_nodup_map s.db.fileIdsNodup hr hmem hid

/-- A removal of a file id by a running manager. -/
theorem step_remove {s : InodeSession} {next : UInt64} (hnext : s.nextInode = some next) (fileId : FileId) :
    s.step (.remove fileId none) = { s with db := (s.db.delete fileId.val).2 } := by
  obtain ⟨db, _, returned⟩ := s
  cases hnext
  rfl

/-- After a start that finds a returned number above the greatest stored one, some calls hand it out again. -/
theorem Unmixed.reissue {s : InodeSession} (h : s.Unmixed) (hlost : ¬ s.Kept) :
    ∃ rest, (∀ a ∈ rest, KeepsRoot a) ∧ ¬ (s.run (.restart none none none :: rest)).NoRecycling := by
  obtain ⟨⟨fileId, inode⟩, hp, hgt⟩ : ∃ p ∈ s.returned, ¬ p.2 ≤ s.maxInode := by
    by_contra hall
    exact hlost fun p hp => by_contra fun hp' => hall ⟨p, hp, hp'⟩
  replace hgt : s.maxInode.toNat < inode.toNat := by
    rw [UInt64.le_iff_toNat_le] at hgt
    exact Nat.lt_of_not_le hgt
  obtain ⟨hpos, hlt, -⟩ := h.maxInode.resolve_left fun ⟨hnil, _⟩ => by
    rw [h.unused hnil] at hp
    cases hp
  have hrestored := restored_eq hpos hlt
  obtain ⟨hnext, hreturned, hrows⟩ := h.step_restart
  have hnotroot : rootRow.inode ≠ inode.toInt64 := fun heq => by
    have := congrArg UInt64.toNat (toInt64_inj.1 heq)
    have : fuseRootInode.toNat = 1 := rfl
    omega
  -- the row with the number, if there is one, is that of the file id it was returned for
  have hholder : ∀ r ∈ (s.step (.restart none none none)).db.rows, r.inode = inode.toInt64 →
      r.fileId = fileId.val ∧ fileId ≠ ⟨rootFileId⟩ := by
    intro r hr hinode
    have hold : r ∈ s.db.rows := (hrows r hr).resolve_right fun heq => hnotroot (heq ▸ hinode)
    have hid : (⟨r.fileId⟩ : FileId) = fileId := by
      refine h.functional _ (h.stored r hold) _ (List.mem_cons_of_mem _ hp) ?_
      show r.inode.toUInt64 = inode
      rw [hinode, UInt64.toUInt64_toInt64]
    refine ⟨congrArg FileId.val hid, fun hroot => hnotroot ?_⟩
    rw [← rootRow_of_root h.toRooted hold (congrArg FileId.val (hid.trans hroot)), hinode]
  have hviolates : ∀ {rest : List InodeAction} {f : FileId}, f ≠ fileId →
      (f, inode) ∈ (s.run (.restart none none none :: rest)).returned →
      ¬ (s.run (.restart none none none :: rest)).NoRecycling := fun hne hmem hnone =>
    hne (hnone _ hmem _ (run_mem_returned hp) rfl)
  by_cases hstored : ∃ r ∈ (s.step (.restart none none none)).db.rows, r.inode = inode.toInt64
  · obtain ⟨r, hr, hinode⟩ := hstored
    have hnotRoot := (hholder r hr hinode).2
    have hremove := step_remove hnext fileId
    obtain ⟨actions, f, hkeeps, hne, hmem⟩ := exists_reissue fileId inode (inode.toNat - s.restored.toNat)
      (s := (s.step (.restart none none none)).step (.remove fileId none)) (by rw [hremove]; exact hnext) (by omega)
      fun r' hr' hinode' => by
        rw [hremove] at hr'
        obtain ⟨hr', hid⟩ := InodesTable.mem_delete.1 hr'
        exact hid (hholder r' hr' hinode').1
    refine ⟨.remove fileId none :: actions, fun a ha => ?_, hviolates hne hmem⟩
    rcases List.mem_cons.1 ha with rfl | ha
    · exact hnotRoot
    · exact hkeeps a ha
  · obtain ⟨actions, f, hkeeps, hne, hmem⟩ := exists_reissue fileId inode (inode.toNat - s.restored.toNat) hnext
      (by omega) fun r hr hinode => hstored ⟨r, hr, hinode⟩
    exact ⟨actions, hkeeps, hviolates hne hmem⟩

/-- While every start finds the returned numbers kept and no allocation overflows the counter, a number goes
to one file id; a start that finds one lost can be followed by calls that hand it out again. -/
theorem not_recycled (actions : List InodeAction) (hroot : ∀ a ∈ actions, KeepsRoot a)
    (hsafe : ∀ before a after, actions = before ++ a :: after → (start.run before).Safe a) :
    (start.run actions).NoRecycling ∧
      (¬ (start.run actions).Kept → ∃ rest, (∀ a ∈ rest, KeepsRoot a) ∧
        ¬ (start.run (actions ++ .restart none none none :: rest)).NoRecycling) := by
  have h := run_unmixed hroot hsafe
  refine ⟨h.noRecycling, fun hlost => ?_⟩
  obtain ⟨rest, hkeeps, hmixed⟩ := h.reissue hlost
  exact ⟨rest, hkeeps, by rwa [run_append]⟩

/-- A start after the removal of a file that had not the greatest number. -/
theorem not_recycled_sample : (start.run secondStart).NoRecycling :=
  (not_recycled secondStart (by decide) fun before a after hsplit => by
    match before, hsplit with
    | [], hsplit | [_], hsplit | [_, _], hsplit | [_, _, _], hsplit | [_, _, _, _], hsplit =>
      cases hsplit
      decide +kernel
    | _ :: _ :: _ :: _ :: _ :: _, hsplit =>
      have hlen := congrArg List.length hsplit
      simp only [secondStart, List.length_append, List.length_cons, List.length_nil] at hlen
      omega).1

/-- The file with the greatest number is removed, and after a start its number goes to the next one. -/
theorem recycled_after_start :
    let actions : List InodeAction := [.restart none none none, .getOrAllocate ⟨['a']⟩ none none, .remove ⟨['a']⟩ none,
      .restart none none none, .getOrAllocate ⟨['b']⟩ none none]
    (∀ a ∈ actions, KeepsRoot a) ∧ ¬ (start.run actions).NoRecycling := by
  decide +kernel

end InodeSession

end CloudSync
