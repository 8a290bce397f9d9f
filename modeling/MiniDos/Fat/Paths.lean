import MiniDos.Fat.Listing
import MiniDos.Fat.TreeOps
import MiniDos.Lib.Paths
import Mathlib.Data.List.GetD

/-!
# MiniDos.Fat.Paths

Paths of names through the directories of a volume.

* `matchName_bytes`: a name that finds an entry is spelled with the bytes of that entry.
* `subdir`, `parentOf`: the steps down and up. `parentOf_subdir`: a step up undoes a step down.
* `resolve`: the names looked up one after the other with `fat16_find_dir_cluster`; it takes the walk
  along `subdir` (`resolve_run`).
-/

namespace MiniDos
namespace Fat16

open BlockIO Chain Paths

variable {ctx : Ctx Buffer Sector} {g : Globals} {m : DriverMem} {d : Disk} {dir c fuel : Nat}
  {name : CStr} {e : DirectoryEntry}

/-! ## What a name matches -/

theorem CStr.at_eq_getElem {i : Nat} (hi : i < name.length) : name.at i = name[i] :=
  List.getD_eq_getElem _ _ hi

theorem CStr.length_le_of_at (hzero : (0 : Byte) ∉ name) {i : Nat} (h : name.at i = 0) :
    name.length ≤ i := by
  by_contra hlt
  have hi : i < name.length := by omega
  exact hzero (h ▸ CStr.at_eq_getElem hi ▸ List.getElem_mem hi)

theorem matchBase_same : ∀ n j {L : Nat}, matchBase name e n j = some L →
    ∀ i, j ≤ i → i < L → e.nameAt i = name.at i := by
  intro n
  induction n with
  | zero =>
    intro j L h i hi hL
    simp only [matchBase, Option.some.injEq] at h
    omega
  | succ n ih =>
    intro j L h i hi hL
    rw [matchBase] at h
    by_cases hstop : name.at j = chDot ∨ name.at j = 0
    · rw [if_pos hstop, Option.some.injEq] at h
      omega
    · rw [if_neg hstop] at h
      by_cases hsame : e.nameAt j = name.at j
      · rw [if_neg (fun hne => hne hsame)] at h
        rcases Nat.eq_or_lt_of_le hi with rfl | hlt
        · exact hsame
        · exact ih (j + 1) h i hlt hL
      · rw [if_pos hsame] at h
        cases h

theorem matchExt_same : ∀ n pos {stop : Nat}, matchExt name e n pos = some stop →
    ∀ i, pos ≤ i → i < stop → ∃ k, e.nameAt k = name.at i := by
  intro n
  induction n with
  | zero =>
    intro pos stop h i hi hstop
    simp only [matchExt, Option.some.injEq] at h
    omega
  | succ n ih =>
    intro pos stop h i hi hstop
    rw [matchExt] at h
    by_cases hend : name.at pos = 0
    · rw [if_pos hend, Option.some.injEq] at h
      omega
    · rw [if_neg hend] at h
      by_cases hsame : e.nameAt (11 - (n + 1)) = name.at pos
      · rw [if_neg (fun hne => hne hsame)] at h
        rcases Nat.eq_or_lt_of_le hi with rfl | hlt
        · exact ⟨_, hsame⟩
        · exact ih (pos + 1) h i hlt hstop
      · rw [if_pos hsame] at h
        cases h

/-- A name that matches has the bytes of the entry, but for its dot. -/
theorem matchName_bytes (hzero : (0 : Byte) ∉ name) (hnd : isDotName name = false)
    (h : matchName name e = true) : ∀ b ∈ name, b = chDot ∨ ∃ k, e.nameAt k = b := by
  have hbytes : (∀ i < name.length, name.at i = chDot ∨ ∃ k, e.nameAt k = name.at i) →
      ∀ b ∈ name, b = chDot ∨ ∃ k, e.nameAt k = b := by
    intro hall b hb
    obtain ⟨i, hi, rfl⟩ := List.mem_iff_getElem.mp hb
    exact CStr.at_eq_getElem hi ▸ hall i hi
  refine hbytes (fun i hi => ?_)
  rw [matchName_plain hnd] at h
  cases hbase : matchBase name e 8 0 with
  | none =>
    rw [hbase] at h
    cases h
  | some len =>
    have hsame := matchBase_same 8 0 hbase
    by_cases hfront : i < len
    · exact .inr ⟨i, hsame i (Nat.zero_le i) hfront⟩
    rw [hbase] at h
    dsimp only [Option.elim] at h
    by_cases hlen : len ≠ dirNameEnd e 8
    · rw [if_pos hlen] at h
      cases h
    rw [if_neg hlen] at h
    by_cases hdot : name.at len = chDot
    · rw [if_pos hdot] at h
      cases hext : matchExt name e 3 (len + 1) with
      | none =>
        rw [hext] at h
        cases h
      | some stop =>
        rw [hext] at h
        have hend := CStr.length_le_of_at hzero (beq_iff_eq.mp h)
        rcases Nat.eq_or_lt_of_le (Nat.le_of_not_lt hfront) with rfl | hlt
        · exact .inl hdot
        · exact .inr (matchExt_same 3 (len + 1) hext i hlt (Nat.lt_of_lt_of_le hi hend))
    · rw [if_neg hdot] at h
      have hend : name.at len = 0 := by
        split at h
        · exact beq_iff_eq.mp (Bool.and_eq_true _ _ ▸ h).2
        · exact beq_iff_eq.mp h
      exact absurd hi (by have := CStr.length_le_of_at hzero hend; omega)

theorem matchName_nil (h : matchName [] e = true) (i : Fin 11) : e.name i = chSpace := by
  rw [matchName_plain rfl] at h
  have hbase : matchBase [] e 8 0 = some 0 := by simp [matchBase, CStr.at]
  rw [hbase] at h
  dsimp only [Option.elim] at h
  by_cases hlen : 0 ≠ dirNameEnd e 8
  · rw [if_pos hlen] at h
    cases h
  have hend : dirNameEnd e 8 = 0 := by omega
  have hdot : ¬ CStr.at [] 0 = chDot := by decide
  rw [if_neg hlen, if_neg hdot, if_pos (by omega), Bool.and_eq_true] at h
  rw [← nameAt_eq_name]
  by_cases hi : i.val < 8
  · exact blank_behind_base 8 (by omega) hi
  · exact (blankFrom_iff_forall 3 8).mp h.1 i (by omega) i.isLt

/-! ## Steps -/

/-- The directory that `name` finds in directory `dir`. -/
noncomputable def subdir (g : Globals) (d : Disk) (dir : Nat) (name : CStr) : Option Nat :=
  ((lookup name d (dirSlots g dir (chainOf g d dir))).filter
    (fun p => (entryAt d p).isDirectory)).map (fun p => (entryAt d p).first)

/-- The directory that `..` finds; the root is its own parent. -/
noncomputable def parentOf (g : Globals) (d : Disk) (c : Nat) : Option Nat :=
  if c = 0 then some 0 else subdir g d c dotDot

theorem subdir_eq_some : subdir g d dir name = some c ↔
    ∃ p, lookup name d (dirSlots g dir (chainOf g d dir)) = some p ∧
      (entryAt d p).isDirectory = true ∧ (entryAt d p).first = c := by
  unfold subdir
  rw [Option.map_eq_some_iff]
  simp only [Option.filter_eq_some_iff, and_assoc]

theorem wp_findDirCluster_subdir (hg : g.Valid) (hw : WellFormed g m.disk) (hdir : IsDir g m.disk dir)
    (hfuel : g.getTotalClusters ≤ fuel) (name : CStr) :
    (findDirCluster g fuel dir name).wp ctx (fun r m' => m'.disk = m.disk ∧
      (r = subdir g m.disk dir name ∨ (ctx.Failed m ∧ r = none))) m := by
  obtain ⟨l, hok⟩ := hw.dirOk hdir
  have hch := chainOf_eq hg hok.chained
  unfold findDirCluster
  rw [Prog.wp_bind]
  refine Prog.wp_mono (wp_findEntryInternal hg hok hfuel name) ?_
  rintro r m' ⟨hdisk, _, hr⟩
  rw [← hch] at hr
  cases r with
  | none =>
    refine ⟨hdisk, hr.imp (fun hr => ?_) (fun hf => ⟨hf.1, rfl⟩)⟩
    rw [subdir, Option.map_eq_none_iff.mp hr.symm]
    rfl
  | some found =>
    rcases hr with hr | ⟨_, hr⟩
    case inr => cases hr
    obtain ⟨p, hp, rfl⟩ := Option.map_eq_some_iff.mp hr.symm
    by_cases hpd : (entryAt m.disk p).isDirectory = true
    · simp only [locate, hpd, if_true]
      exact ⟨hdisk, .inl (subdir_eq_some.mpr ⟨p, hp, hpd, rfl⟩).symm⟩
    · simp only [locate, hpd]
      refine ⟨hdisk, .inl ?_⟩
      rw [subdir, hp]
      simp [Option.filter, hpd]

theorem wp_getParentCluster_parentOf (hg : g.Valid) (hw : WellFormed g m.disk)
    (hdir : IsDir g m.disk dir) (hfuel : g.getTotalClusters ≤ fuel) :
    (getParentCluster g fuel dir).wp ctx (fun r m' => m'.disk = m.disk ∧
      (r = parentOf g m.disk dir ∨ (ctx.Failed m ∧ r = none))) m := by
  unfold getParentCluster parentOf
  by_cases h0 : dir = 0
  · rw [if_pos h0, if_pos h0]
    exact ⟨rfl, .inl rfl⟩
  · rw [if_neg h0, if_neg h0]
    exact wp_findDirCluster_subdir hg hw hdir hfuel dotDot

theorem subdir_isDir (hg : g.Valid) (hw : WellFormed g d) (hd : Dotted g d) (hdir : IsDir g d dir)
    (h : subdir g d dir name = some c) : IsDir g d c := by
  obtain ⟨p, hp, hpd, rfl⟩ := subdir_eq_some.mp h
  obtain ⟨l, hl⟩ := hw.dir_chained hdir
  rw [chainOf_eq hg hl] at hp
  exact lookup_isDir hg hd hdir hl hp hpd

theorem subdir_child (hg : g.Valid) (hw : WellFormed g d) (hdir : IsDir g d dir)
    (hname : isDotName name = false) (h : subdir g d dir name = some c) :
    ∃ p, Child g d dir p ∧ matchName name (entryAt d p) = true ∧ (entryAt d p).first = c := by
  obtain ⟨p, hp, hpd, hfirst⟩ := subdir_eq_some.mp h
  obtain ⟨l, hl⟩ := hw.dir_chained hdir
  rw [chainOf_eq hg hl] at hp
  have hhits := lookup_hits hp
  have hmatch : matchName name (entryAt d p) = true := by
    simp only [DirectoryEntry.hits, Bool.and_eq_true] at hhits
    exact hhits.2
  exact ⟨p, ⟨⟨l, hl, lookup_mem hp⟩, DirectoryEntry.isLive_of_hits hhits,
    not_dot_of_matchName hname hmatch, hpd⟩, hmatch, hfirst⟩

theorem dotEntry_hits {n : Name} (h : DotEntry e n c) :
    e.hits dotDot = matchName dotDot (newEntry n 0 0 attrDirectory) := by
  unfold DirectoryEntry.hits
  rw [h.visible, Bool.true_and]
  exact matchName_congr h.name dotDot

theorem parentOf_subdir (hg : g.Valid) (hw : WellFormed g d) (hd : Dotted g d) (hdir : IsDir g d dir)
    (hname : isDotName name = false) (h : subdir g d dir name = some c) :
    parentOf g d c = some dir := by
  obtain ⟨p, hchild, _, rfl⟩ := subdir_child hg hw hdir hname h
  have hdots := hd.sub dir p hdir hchild
  obtain ⟨l, hl⟩ := hw.dir_chained (hchild.isDir hdir)
  obtain ⟨rest, hrest⟩ := hg.dirSlots_head hl hdots.nonzero
  have hdot : (entryAt d (headSlot g (entryAt d p).first)).hits dotDot = false := by
    rw [dotEntry_hits hdots.dot]
    decide
  have hdotDot : (entryAt d (g.clusterSector (entryAt d p).first, 1)).hits dotDot = true := by
    rw [dotEntry_hits hdots.dotDot]
    decide
  rw [parentOf, if_neg hdots.nonzero, subdir_eq_some, chainOf_eq hg hl, hrest]
  refine ⟨_, ?_, hdots.dotDot.isDirectory, hdots.dotDot.first⟩
  rw [lookup, List.find?_cons_of_neg (by simp [hdot])]
  exact List.find?_cons_of_pos hdotDot

/-! ## Resolving a path -/

/-- `fat16_find_dir_cluster` for each name in turn. -/
def resolve (g : Globals) (fuel : Nat) : Nat → List CStr → DiskProg (Option Nat)
  | dir, [] => pure (some dir)
  | dir, name :: names => do
    let next ← findDirCluster g fuel dir name
    match next with
    | none => pure none
    | some c => resolve g fuel c names

theorem wp_resolve (hg : g.Valid) (hfuel : g.getTotalClusters ≤ fuel) (hnf : ¬ ctx.Faulty)
    (names : List CStr) : ∀ {dir : Nat} {m : DriverMem}, WellFormed g m.disk → Dotted g m.disk →
      IsDir g m.disk dir → (resolve g fuel dir names).wp ctx
        (fun r _ => r = walk (subdir g m.disk) dir names) m := by
  induction names with
  | nil =>
    intro dir m _ _ _
    rfl
  | cons name names ih =>
    intro dir m hw hd hdir
    unfold resolve
    rw [Prog.wp_bind]
    refine Prog.wp_mono (wp_findDirCluster_subdir hg hw hdir hfuel name) ?_
    rintro r m' ⟨hdisk, hr | ⟨hf, _⟩⟩
    case inr => exact absurd hf.faulty hnf
    subst hr
    rw [walk_cons]
    cases hc : subdir g m.disk dir name with
    | none => rfl
    | some c =>
      rw [← hdisk] at hw hd hdir hc ⊢
      exact ih hw hd (subdir_isDir hg hw hd hdir hc)

theorem resolve_run (hg : g.Valid) (hfuel : g.getTotalClusters ≤ fuel) (hw : WellFormed g m.disk)
    (hd : Dotted g m.disk) (hdir : IsDir g m.disk dir) (names : List CStr) :
    ∃ m', (resolve g fuel dir names).run noFaults m = some (walk (subdir g m.disk) dir names, m') := by
  obtain ⟨r, m', hrun, rfl⟩ := Prog.exists_run
    (wp_resolve hg hfuel (Ctx.total_not_faulty (fun _ => True)) names hw hd hdir)
  exact ⟨m', hrun⟩

end Fat16
end MiniDos
