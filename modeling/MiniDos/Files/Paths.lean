import MiniDos.Fat.Paths
import MiniDos.Files.Model

/-!
# MiniDos.Files.Paths

The textual path of a current directory (`path_reset`, `path_pop` and `path_push` of `shell.c`), and
the directory that it leads to.

* `Legal`, `Component`: the names of directories, and the names in a path.
* `pathPop_pathPush`: a pop undoes a push.
* `Leads`: the path is the text of a walk from the root to the directory. `Leads.enter`, `Leads.up`:
  a step keeps it. `placed_iff`: it is what resolving the path says.
-/

namespace MiniDos
namespace Files

open BlockIO Fat16 Paths

variable {g : Globals} {d : Disk} {dir c c' fuel maxLen : Nat} {name path path' : CStr}
  {names : List CStr} {e : DirectoryEntry}

/-! ## Names -/

/-- Not blank, and without a backslash. -/
structure Legal (n : Name) : Prop where
  shown : ∃ i, n i ≠ chSpace
  chars : ∀ i, n i ≠ chBackslash

instance (n : Name) : Decidable (Legal n) :=
  decidable_of_iff ((∃ i, n i ≠ chSpace) ∧ ∀ i, n i ≠ chBackslash)
    ⟨fun h => ⟨h.1, h.2⟩, fun h => ⟨h.shown, h.chars⟩⟩

structure Component (name : CStr) : Prop where
  ne_nil : name ≠ []
  whole : chBackslash ∉ name
  notDot : isDotName name = false

theorem padName_cases {P : Byte → Prop} {base ext : List Byte} (hspace : P chSpace)
    (hbase : ∀ c ∈ base, P c) (hext : ∀ c ∈ ext, P c) (i : Fin 11) : P (padName base ext i) := by
  have hfield : ∀ (f : List Byte) (j : Nat), (∀ c ∈ f, P c) → P (f.getD j chSpace) := by
    intro f j hf
    rw [List.getD_eq_getElem?_getD]
    cases hj : f[j]? with
    | none => exact hspace
    | some c => exact hf c (List.mem_of_getElem? hj)
  unfold padName
  split
  · exact hfield base _ hbase
  · exact hfield ext _ hext

theorem formatName_legal {s : CStr} {n : Name} (h : formatName s = some n) : Legal n := by
  obtain ⟨hok, rfl⟩ := formatName_eq_some.mp h
  have hsep : ∀ {t : List Byte}, (∀ c ∈ t, Plain (upperChar c)) →
      ∀ c ∈ t.map upperChar, c ≠ chBackslash := by
    intro t ht c hc
    obtain ⟨x, hx, rfl⟩ := List.mem_map.mp hc
    intro heq
    exact (ht x hx).2 (heq ▸ by decide)
  refine ⟨?_, padName_cases (by decide) (hsep hok.baseChars) (hsep hok.extChars)⟩
  cases hb : baseOf s with
  | cons b bs => exact ⟨0, (hok.baseChars b (hb ▸ List.mem_cons_self)).1⟩
  | nil =>
    cases hx : extOf s with
    | cons x xs => exact ⟨8, (hok.extChars x (hx ▸ List.mem_cons_self)).1⟩
    | nil =>
      -- only the empty name and `.` have neither a base nor an extension
      exfalso
      rcases name_split s with ⟨hs, _⟩ | hs
      · exact hok.first (by rw [hs, hb]; rfl)
      · have hdot := hok.notDot
        rw [hs, hb, hx] at hdot
        exact absurd hdot (by decide)

theorem component_of_matchName (hzero : (0 : Byte) ∉ name) (hnd : isDotName name = false)
    (hlegal : Legal e.name) (h : matchName name e = true) : Component name := by
  refine ⟨?_, fun hsep => ?_, hnd⟩
  · rintro rfl
    obtain ⟨i, hi⟩ := hlegal.shown
    exact hi (matchName_nil h i)
  · rcases matchName_bytes hzero hnd h _ hsep with hdot | ⟨k, hk⟩
    · exact absurd hdot (by decide)
    · unfold DirectoryEntry.nameAt at hk
      split at hk
      · exact hlegal.chars _ hk
      · exact absurd hk (by decide)

def LegalDirs (g : Globals) (d : Disk) : Prop :=
  ∀ parent p, IsDir g d parent → Child g d parent p → Legal (entryAt d p).name

theorem subdir_component (hg : g.Valid) (hw : WellFormed g d) (hlegal : LegalDirs g d)
    (hdir : IsDir g d dir) (hzero : (0 : Byte) ∉ name) (hname : isDotName name = false)
    (h : subdir g d dir name = some c) : Component name := by
  obtain ⟨p, hchild, hmatch, _⟩ := subdir_child hg hw hdir hname h
  exact component_of_matchName hzero hname (hlegal dir p hdir hchild) hmatch

/-! ## Texts -/

def WellFormedPath (path : CStr) : Prop :=
  ∃ names, Spelled chBackslash names ∧ path = text chBackslash names

theorem popFrom_behind {front : CStr} (hname : chBackslash ∉ name) {j : Nat} (hj : j ≤ name.length) :
    popFrom (front ++ chBackslash :: name) (front.length + j) =
      if front = [] then pathReset else front := by
  induction j with
  | zero =>
    cases front with
    | nil => rfl
    | cons x xs =>
      have hat : CStr.at (x :: xs ++ chBackslash :: name) (xs.length + 1) = chBackslash :=
        CStr.at_append_right (x :: xs) (chBackslash :: name) 0
      show popFrom (x :: xs ++ chBackslash :: name) (xs.length + 1) = _
      rw [popFrom, if_pos hat, if_neg (List.cons_ne_nil x xs)]
      exact List.take_left' rfl
  | succ j ih =>
    have hat : CStr.at (front ++ chBackslash :: name) (front.length + j + 1) = name[j] :=
      (CStr.at_append_right front (chBackslash :: name) (j + 1)).trans (CStr.at_eq_getElem hj)
    have hne : name[j] ≠ chBackslash := fun h => hname (h ▸ List.getElem_mem hj)
    show popFrom (front ++ chBackslash :: name) (front.length + j + 1) = _
    rw [popFrom, if_neg (fun h => hne (hat.symm.trans h))]
    exact ih (Nat.le_of_succ_le hj)

theorem pathPop_behind {front : CStr} (hname : chBackslash ∉ name) :
    pathPop (front ++ chBackslash :: name) = if front = [] then pathReset else front := by
  have hlen : (front ++ chBackslash :: name).length = front.length + name.length + 1 := by
    simp [Nat.add_assoc]
  unfold pathPop
  rw [hlen]
  by_cases hshort : front.length + name.length + 1 ≤ 1
  · have hnil : front = [] := List.length_eq_zero_iff.mp (by omega)
    rw [if_pos hshort, if_pos hnil]
  · rw [if_neg hshort, Nat.add_sub_cancel]
    exact popFrom_behind hname (Nat.le_refl _)

theorem joined_eq_nil : joined chBackslash names = [] ↔ names = [] := by
  cases names <;> simp [joined]

theorem text_eq_ite : text chBackslash names =
    if joined chBackslash names = [] then pathReset else joined chBackslash names := by
  by_cases h : names = []
  · rw [if_pos (joined_eq_nil.mpr h), h]
    rfl
  · rw [if_neg (fun hj => h (joined_eq_nil.mp hj)), text_eq_joined h]

theorem getLast?_joined (h : Spelled chBackslash names) :
    (joined chBackslash names).getLast? ≠ some chBackslash := by
  induction names using List.reverseRecOn with
  | nil => simp [joined]
  | append_singleton ns n _ =>
    obtain ⟨hne, hsep⟩ := h n (by simp)
    rw [joined_concat, List.getLast?_append_of_ne_nil _ (by simp), List.getLast?_cons,
      List.getLast?_eq_some_getLast hne]
    exact fun heq => hsep (Option.some.inj heq ▸ List.getLast_mem hne)

theorem pathPush_text (h : Spelled chBackslash names) (maxLen : Nat) (name : CStr) :
    pathPush (text chBackslash names) maxLen name =
      if maxLen < (joined chBackslash names).length + 1 + name.length + 1 then none
      else some (joined chBackslash names ++ chBackslash :: name) := by
  by_cases hnil : names = []
  · subst hnil
    simp [pathPush, pathReset, joined]
  · have hlast := getLast?_joined h
    have hreset : joined chBackslash names ≠ pathReset := fun hr => hlast (by rw [hr]; rfl)
    rw [text_eq_joined hnil, pathPush, if_neg hreset, if_neg hlast, List.append_assoc]
    rfl

theorem pathPush_eq_some (h : Spelled chBackslash names) :
    pathPush (text chBackslash names) maxLen name = some path ↔
      path.length + 1 ≤ maxLen ∧ path = joined chBackslash names ++ chBackslash :: name := by
  have hlen : (joined chBackslash names ++ chBackslash :: name).length + 1 =
      (joined chBackslash names).length + 1 + name.length + 1 := by
    simp only [List.length_append, List.length_cons]
    omega
  rw [pathPush_text h]
  split
  · refine iff_of_false (by simp) (fun hp => ?_)
    rw [hp.2, hlen] at hp
    omega
  · rw [Option.some.injEq, eq_comm]
    refine ⟨fun hp => ⟨?_, hp⟩, fun hp => hp.2⟩
    rw [hp, hlen]
    omega

theorem pathPop_pathPush (hpath : WellFormedPath path) (hname : chBackslash ∉ name)
    (hpush : pathPush path maxLen name = some path') : pathPop path' = path := by
  obtain ⟨names, hnames, rfl⟩ := hpath
  obtain ⟨_, rfl⟩ := (pathPush_eq_some hnames).mp hpush
  rw [pathPop_behind hname, text_eq_ite]

/-! ## The directory of a path -/

/-- The path is the text of a walk from the root to the directory, and fits its buffer. -/
structure Leads (g : Globals) (d : Disk) (cluster : Nat) (path : CStr) : Prop where
  walked : ∃ names, (∀ n ∈ names, Component n) ∧ path = text chBackslash names ∧
    walk (subdir g d) 0 names = some cluster
  fits : path.length + 1 ≤ pathMax

theorem spelled_of_components (h : ∀ n ∈ names, Component n) : Spelled chBackslash names :=
  fun n hn => ⟨(h n hn).ne_nil, (h n hn).whole⟩

theorem Leads.root : Leads g d 0 pathReset :=
  ⟨⟨[], (fun _ hn => nomatch hn), rfl, rfl⟩, by decide⟩

section Steps

variable (hg : g.Valid) (hw : WellFormed g d) (hd : Dotted g d)
include hg hw hd

theorem Leads.isDir (h : Leads g d c path) : IsDir g d c := by
  obtain ⟨names, hnames, _, hwalk⟩ := h.walked
  exact walk_holds (Q := Component) (fun _ _ _ ha _ hstep => subdir_isDir hg hw hd ha hstep) .root
    hnames hwalk

theorem Leads.enter (hlegal : LegalDirs g d) (h : Leads g d c path) (hzero : (0 : Byte) ∉ name)
    (hnd : isDotName name = false) (hsub : subdir g d c name = some c')
    (hpush : pathPush path pathMax name = some path') : Leads g d c' path' := by
  have hname := subdir_component hg hw hlegal (h.isDir hg hw hd) hzero hnd hsub
  obtain ⟨names, hnames, rfl, hwalk⟩ := h.walked
  obtain ⟨hfits, rfl⟩ := (pathPush_eq_some (spelled_of_components hnames)).mp hpush
  refine ⟨⟨names ++ [name], fun n hn => ?_, text_concat.symm, ?_⟩, hfits⟩
  · rcases List.mem_append.mp hn with hn | hn
    · exact hnames n hn
    · rw [List.mem_singleton.mp hn]
      exact hname
  · rw [walk_concat, hwalk]
    exact hsub

theorem Leads.up (h : Leads g d c path) (hup : parentOf g d c = some c') :
    Leads g d c' (pathPop path) := by
  obtain ⟨names, hnames, rfl, hwalk⟩ := h.walked
  induction names using List.reverseRecOn with
  | nil =>
    -- the root is its own parent, and the path stays
    cases hwalk
    cases hup
    exact .root
  | append_singleton ns n _ =>
    have hn := hnames n (by simp)
    have hns : ∀ x ∈ ns, Component x := fun x hx => hnames x (List.mem_append_left _ hx)
    have hparent := walk_parent (fun _ _ _ ha _ hstep => subdir_isDir hg hw hd ha hstep)
      (fun _ _ _ ha hl hstep => parentOf_subdir hg hw hd ha hl.notDot hstep) .root hnames hwalk
    have hpop : pathPop (text chBackslash (ns ++ [n])) = text chBackslash ns := by
      rw [text_concat, pathPop_behind hn.whole, text_eq_ite]
    refine ⟨⟨ns, hns, hpop, hparent.trans hup⟩, ?_⟩
    have hfits := h.fits
    have hpos := List.length_pos_iff.mpr hn.ne_nil
    rw [text_concat, List.length_append, List.length_cons] at hfits
    rw [hpop, text_eq_ite]
    split
    · simp only [pathReset, List.length_singleton]
      omega
    · omega

end Steps

/-! ## Resolving the path -/

/-- The state of a current directory: the path is a path, it fits its buffer, and resolving its
components from the root with `fat16_find_dir_cluster` gives the cluster. -/
structure Placed (g : Globals) (fuel : Nat) (m : DriverMem) (cluster : Nat) (path : CStr) : Prop where
  spelled : ∃ names, (∀ n ∈ names, Component n) ∧ path = text chBackslash names
  fits : path.length + 1 ≤ pathMax
  resolves : ∃ m', (resolve g fuel 0 (parts chBackslash path)).run noFaults m = some (some cluster, m')

theorem placed_iff {m : DriverMem} (hg : g.Valid) (hfuel : g.getTotalClusters ≤ fuel)
    (hw : WellFormed g m.disk) (hd : Dotted g m.disk) :
    Placed g fuel m c path ↔ Leads g m.disk c path := by
  have hrun := resolve_run hg hfuel hw hd .root
  constructor
  · rintro ⟨⟨names, hnames, rfl⟩, hfits, m₁, hres⟩
    obtain ⟨m₂, hwalk⟩ := hrun names
    rw [parts_text (spelled_of_components hnames), hwalk] at hres
    exact ⟨⟨names, hnames, rfl, congrArg Prod.fst (Option.some.inj hres)⟩, hfits⟩
  · rintro ⟨⟨names, hnames, rfl, hwalk⟩, hfits⟩
    obtain ⟨m₂, hres⟩ := hrun names
    refine ⟨⟨names, hnames, rfl⟩, hfits, m₂, ?_⟩
    rw [parts_text (spelled_of_components hnames), hres, hwalk]

end Files
end MiniDos
