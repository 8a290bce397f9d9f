import MiniDos.Desk.Model
import MiniDos.Lib.History
import MiniDos.Lib.Transition

/-!
# MiniDos.Desk.History

The history of a window: four arrays and a cursor, which stand for the places visited last.

* `Follows`: the arrays hold the places of a `Trail`, and the window is at its cursor.
* `follows_perform`: each operation moves the trail, or visits the place where the window is then.
-/

namespace MiniDos
namespace Desk

open Fat16 Transition

/-! ## Places -/

/-- What a window shows: the drives, or the directory of the names below a drive. -/
inductive Location where
  | drives
  | folder (drive : Nat) (names : List Name)
  deriving DecidableEq

def located (showingDrives : Bool) (drive depth : Nat) (dirs : Nat → Name) : Location :=
  if showingDrives then .drives else .folder drive ((List.range depth).map dirs)

def Explorer.location (e : Explorer) : Location := located e.showingDrives e.drive e.depth e.dirs

def Explorer.place (e : Explorer) (i : Int) : Location :=
  located (e.historyShowingDrives i) (e.historyDrive i) (e.historyDepth i) (e.historyDirs i)

theorem located_congr {showingDrives : Bool} {drive depth : Nat} {dirs dirs' : Nat → Name}
    (h : ∀ i < depth, dirs' i = dirs i) :
    located showingDrives drive depth dirs' = located showingDrives drive depth dirs := by
  have hnames : (List.range depth).map dirs' = (List.range depth).map dirs :=
    List.map_congr_left (fun i hi => h i (List.mem_range.mp hi))
  rw [located, located, hnames]

theorem located_eq_iff {showing showing' : Bool} {drive drive' depth depth' : Nat} {dirs dirs' : Nat → Name} :
    located showing drive depth dirs = located showing' drive' depth' dirs' ↔
      showing = showing' ∧
        (showing = true ∨ drive = drive' ∧ depth = depth' ∧ ∀ i < depth, dirs i = dirs' i) := by
  cases showing
  · cases showing'
    · simp only [located, Bool.false_eq_true, if_false, Location.folder.injEq, true_and, false_or]
      refine and_congr_right (fun _ => ?_)
      constructor
      · intro hnames
        have hdepth : depth = depth' := by simpa using congrArg List.length hnames
        subst hdepth
        exact ⟨rfl, fun i hi => by simpa [hi] using congrArg (fun l => l[i]?) hnames⟩
      · rintro ⟨rfl, hdirs⟩
        exact List.map_congr_left (fun i hi => hdirs i (List.mem_range.mp hi))
    · simp [located]
  · cases showing'
    · simp [located]
    · simp [located]

theorem matches_iff {e : Explorer} {i : Int} (h : 0 ≤ i) (hcount : i < e.historyCount) :
    historyMatchesIndex e i = true ↔ e.place i = e.location := by
  have hin : ¬ (i < 0 ∨ e.historyCount ≤ i) := by omega
  rw [historyMatchesIndex, if_neg hin, Explorer.place, Explorer.location, located_eq_iff]
  split_ifs with hshowing hdrives hplace
  · simp [hshowing]
  · simp [not_not.mp hshowing, hdrives]
  · refine iff_of_false id ?_
    rintro ⟨heq, hshown | ⟨hdrive, hdepth, _⟩⟩
    · exact hdrives (heq ▸ hshown)
    · exact hplace.elim (fun h => h hdrive) (fun h => h hdepth)
  · obtain ⟨hdrive, hdepth⟩ := not_or.mp hplace
    have hnot : ¬ e.historyShowingDrives i = true := fun hi => hdrives (not_not.mp hshowing ▸ hi)
    rw [not_not.mp hdrive, not_not.mp hdepth]
    simp [not_not.mp hshowing, hdrives, Subtype.ext_iff]

/-! ## Names -/

theorem foldl_update {β : Type} (f : Nat → β) (l : List Nat) (g : Nat → β) (j : Nat) :
    l.foldl (fun out i => Function.update out i (f i)) g j = if j ∈ l then f j else g j := by
  induction l generalizing g with
  | nil => simp
  | cons a l ih =>
    rw [List.foldl_cons, ih]
    by_cases hj : j = a
    · subst hj
      simp
    · simp [hj]

theorem copyDirs_of_lt {src dst : Nat → Name} {i : Nat} (h : i < explorerMaxDepth) :
    copyDirs src dst i = src i := by
  rw [copyDirs, foldl_update (fun i => Name.ofStr (src i).val), if_pos (List.mem_range.mpr h),
    Name.ofStr_val]

theorem clearDirs_of_lt {dirs : Nat → Name} {depth i : Nat} (h : i < depth) :
    clearDirs depth dirs i = dirs i := by
  rw [clearDirs, foldl_update (fun _ => Name.empty), if_neg]
  rw [List.mem_range']
  rintro ⟨k, _, rfl⟩
  omega

theorem located_copyDirs {showingDrives : Bool} {drive depth : Nat} {src dst : Nat → Name}
    (h : depth ≤ explorerMaxDepth) :
    located showingDrives drive depth (copyDirs src dst) = located showingDrives drive depth src :=
  located_congr (fun _ hi => copyDirs_of_lt (Nat.lt_of_lt_of_le hi h))

/-! ## The arrays -/

section Arrays

variable {e : Explorer} {t : Trail Location}

/-- No place is deeper than its names reach. -/
structure Shallow (e : Explorer) : Prop where
  depth : e.depth ≤ explorerMaxDepth
  depths : ∀ i, e.historyDepth i ≤ explorerMaxDepth

theorem capture_place (h : Shallow e) {index : Int} (h0 : 0 ≤ index) (hmax : index < explorerHistoryMax)
    (i : Int) : (historyCapture e index).place i = if i = index then e.location else e.place i := by
  have hin : ¬ (index < 0 ∨ explorerHistoryMax ≤ index) := by omega
  rw [historyCapture, if_neg hin]
  by_cases hi : i = index
  · subst hi
    simp only [Explorer.place, Function.update_self, if_true]
    exact located_copyDirs h.depth
  · simp only [Explorer.place, Function.update_of_ne hi, if_neg hi]

theorem Shallow.capture (h : Shallow e) (index : Int) : Shallow (historyCapture e index) := by
  rw [historyCapture]
  split
  · exact h
  · refine ⟨h.depth, fun i => ?_⟩
    by_cases hi : i = index
    · simpa [hi] using h.depth
    · simpa [hi] using h.depths i

theorem shift_place (h : Shallow e) (i j : Int) :
    (historyShift e i).place j = if j = i - 1 then e.place i else e.place j := by
  by_cases hj : j = i - 1
  · subst hj
    simp only [historyShift, Explorer.place, Function.update_self, if_true]
    exact located_copyDirs (h.depths i)
  · simp only [historyShift, Explorer.place, Function.update_of_ne hj, if_neg hj]

theorem Shallow.shift (h : Shallow e) (i : Int) : Shallow (historyShift e i) := by
  refine ⟨h.depth, fun j => ?_⟩
  by_cases hj : j = i - 1
  · simpa [historyShift, hj] using h.depths i
  · simpa [historyShift, hj] using h.depths j

theorem foldl_shift (h : Shallow e) (n : Nat) :
    Shallow ((List.range n).foldl (fun e (k : Nat) => historyShift e (k + 1)) e) ∧
      ((List.range n).foldl (fun e (k : Nat) => historyShift e (k + 1)) e).location = e.location ∧
      ∀ j : Int, 0 ≤ j → ((List.range n).foldl (fun e (k : Nat) => historyShift e (k + 1)) e).place j =
        if j < n then e.place (j + 1) else e.place j := by
  induction n with
  | zero =>
    refine ⟨h, rfl, fun j hj => ?_⟩
    rw [if_neg (by omega)]
    rfl
  | succ n ih =>
    obtain ⟨hshallow, hlocation, hplace⟩ := ih
    rw [List.range_succ, List.foldl_append, List.foldl_cons, List.foldl_nil]
    refine ⟨hshallow.shift _, hlocation, fun j hj => ?_⟩
    rw [shift_place hshallow, hplace _ (by omega), hplace j hj]
    by_cases hlast : j = n
    · subst hlast
      rw [if_pos (by omega), if_neg (by omega), if_pos (by omega)]
    · have hne : ¬ j = (n : Int) + 1 - 1 := by omega
      rw [if_neg hne]
      congr 1
      simp only [eq_iff_iff]
      omega

theorem dropFirst_spec (h : Shallow e) {k d : Nat} (hcount : e.historyCount = k + d)
    (hmax : (k : Int) + d ≤ explorerHistoryMax) (hd : d = if k + d = 12 then 1 else 0) :
    Shallow (historyDropFirst e) ∧ (historyDropFirst e).location = e.location ∧
      (historyDropFirst e).historyCount = k ∧
      ∀ j : Int, 0 ≤ j → j < k → (historyDropFirst e).place j = e.place (j + d) := by
  rw [explorerHistoryMax] at hmax
  rw [historyDropFirst]
  split_ifs at hd with hfull
  · have hten : explorerHistoryMax ≤ e.historyCount := by rw [explorerHistoryMax]; omega
    obtain ⟨hshallow, hlocation, hplace⟩ := foldl_shift h (e.historyCount.toNat - 1)
    rw [if_pos hten]
    refine ⟨⟨hshallow.depth, hshallow.depths⟩, hlocation, by simp only [explorerHistoryMax]; omega, ?_⟩
    intro j hj hjk
    refine (hplace j hj).trans ?_
    rw [if_pos (by omega), hd]
    rfl
  · have hfree : ¬ explorerHistoryMax ≤ e.historyCount := by rw [explorerHistoryMax]; omega
    rw [if_neg hfree]
    refine ⟨h, rfl, by omega, fun j _ _ => ?_⟩
    rw [hd]
    simp

structure Holds (e : Explorer) (t : Trail Location) : Prop extends Shallow e where
  count : e.historyCount = t.places.length
  index : e.historyIndex = t.cursor
  length_le : t.places.length ≤ 12
  place (i : Nat) (h : i < t.places.length) : t.places[i]? = some (e.place i)

/-- And the window is at its cursor. -/
structure Follows (e : Explorer) (t : Trail Location) : Prop extends Holds e t where
  here : e.location = t.here

theorem Holds.matches_here (h : Holds e t) :
    historyMatchesIndex e e.historyIndex = true ↔ e.location = t.here := by
  have hlt := t.cursor_lt
  have hcount := h.count
  have hindex := h.index
  have hplace := (h.place t.cursor hlt).symm.trans t.getElem?_cursor
  rw [matches_iff (by omega) (by omega), h.index, Option.some.inj hplace]
  exact eq_comm

theorem Holds.clamp (h : Holds e t) : historyClamp e = e := by
  have hlt := t.cursor_lt
  have hcount := h.count
  have hindex := h.index
  have hpos : ¬ e.historyIndex < 0 := by omega
  have hin : ¬ e.historyCount ≤ e.historyIndex := by omega
  simp only [historyClamp, if_neg hpos, if_neg hin]

theorem truncate_count (h : Holds e t) : (historyTruncate e).historyCount = (t.cursor + 1 : Nat) := by
  have hlt := t.cursor_lt
  have hcount := h.count
  have hindex := h.index
  rw [historyTruncate]
  split
  · simp only [hindex]
    omega
  · omega

theorem truncate_same (e : Explorer) : (historyTruncate e).location = e.location ∧
    (historyTruncate e).place = e.place ∧ (Shallow e → Shallow (historyTruncate e)) := by
  rw [historyTruncate]
  split
  · exact ⟨rfl, rfl, fun h => ⟨h.depth, h.depths⟩⟩
  · exact ⟨rfl, rfl, id⟩

theorem capture_location (e : Explorer) (index : Int) : (historyCapture e index).location = e.location := by
  rw [historyCapture]
  split
  all_goals rfl

theorem capture_count (e : Explorer) (index : Int) :
    (historyCapture e index).historyCount = e.historyCount := by
  rw [historyCapture]
  split
  all_goals rfl

theorem append_spec (h : Shallow e) {k : Nat} (hcount : e.historyCount = k) (hk : k < 12) :
    Shallow (historyAppend e) ∧ (historyAppend e).location = e.location ∧
      (historyAppend e).historyCount = (k + 1 : Nat) ∧ (historyAppend e).historyIndex = k ∧
      ∀ j : Int, (historyAppend e).place j = if j = k then e.location else e.place j := by
  have hshallow := h.capture e.historyCount
  have hplace := @capture_place e h e.historyCount (by omega) (by rw [explorerHistoryMax]; omega)
  have hsame := capture_count e e.historyCount
  refine ⟨⟨hshallow.depth, hshallow.depths⟩, capture_location e _, ?_, hsame.trans hcount, fun j => ?_⟩
  · show (historyCapture e e.historyCount).historyCount + 1 = _
    rw [hsame, hcount]
    rfl
  · rw [← hcount]
    exact hplace j

/-- A new place is put behind the cursor. -/
theorem follows_append (h : Holds e t) (hne : e.location ≠ t.here) :
    Follows (historyAppend (historyDropFirst (historyTruncate e)))
      (t.visit (by decide : 0 < 12) e.location) := by
  have hlt := t.cursor_lt
  have hle := h.length_le
  obtain ⟨d, hd⟩ : ∃ d, d = t.cursor + 2 - 12 := ⟨_, rfl⟩
  obtain ⟨k, hk⟩ : ∃ k, k + d = t.cursor + 1 := ⟨t.cursor + 1 - d, by omega⟩
  obtain ⟨hlocation₁, hplace₁, hshallow₁⟩ := truncate_same e
  have hcount₁ : (historyTruncate e).historyCount = (k : Int) + d := by
    rw [truncate_count h, ← hk]
    rfl
  obtain ⟨hshallow₂, hlocation₂, hcount₂, hplace₂⟩ := dropFirst_spec (hshallow₁ h.toShallow) hcount₁
    (by rw [explorerHistoryMax]; omega) (by split <;> omega)
  obtain ⟨hshallow₃, hlocation₃, hcount₃, hindex₃, hplace₃⟩ :=
    append_spec hshallow₂ hcount₂ (by omega)
  have hlength : (t.extended 12 e.location).length = k + 1 := by
    rw [Trail.length_extended]
    omega
  refine ⟨⟨hshallow₃, ?_, ?_, Trail.length_visit _ hle _, fun i hi => ?_⟩, ?_⟩
  · rw [hcount₃, Trail.places_visit hne, hlength]
  · rw [hindex₃, Trail.cursor_visit hne]
    omega
  · rw [Trail.places_visit hne] at hi ⊢
    rw [hlength] at hi
    rw [t.getElem?_extended (by omega), hplace₃, hlocation₂, hlocation₁, ← hd]
    by_cases hlast : i = k
    · rw [if_pos (by omega), if_pos (by omega)]
    · rw [if_neg (by omega), if_neg (by omega), hplace₂ i (by omega) (by omega), hplace₁]
      exact h.place (i + d) (by omega)
  · rw [Trail.here_visit, hlocation₃, hlocation₂, hlocation₁]

theorem follows_commit (h : Holds e t) :
    Follows (historyCommitCurrent e) (t.visit (by decide : 0 < 12) e.location) := by
  have hlt := t.cursor_lt
  have hcount := h.count
  rw [historyCommitCurrent, if_neg (by omega)]
  simp only [h.clamp]
  split
  · rename_i hmatches
    have hhere := h.matches_here.mp hmatches
    rw [Trail.visit, if_pos hhere]
    exact ⟨h, hhere⟩
  · rename_i hmatches
    exact follows_append h (fun hhere => hmatches (h.matches_here.mpr hhere))

theorem follows_restore (h : Holds e t) {i : Nat} (hi : i < t.places.length) :
    Follows (historyRestore { e with historyIndex := i } i) ⟨t.places, i, hi⟩ := by
  have hcount := h.count
  have hin : ¬ ((i : Int) < 0 ∨ e.historyCount ≤ i) := by omega
  have hdepth : ¬ explorerMaxDepth < e.historyDepth i := Nat.not_lt.mpr (h.depths i)
  simp only [historyRestore, if_neg hin, if_neg hdepth]
  refine ⟨⟨⟨h.depths i, h.depths⟩, h.count, rfl, h.length_le, h.place⟩, ?_⟩
  have hdirs : ∀ j < e.historyDepth i,
      clearDirs (e.historyDepth i) (copyDirs (e.historyDirs i) e.dirs) j = e.historyDirs i j := by
    intro j hj
    rw [clearDirs_of_lt hj, copyDirs_of_lt (Nat.lt_of_lt_of_le hj (h.depths i))]
  refine (located_congr hdirs).trans ?_
  have hplace := h.place i hi
  rw [List.getElem?_eq_getElem hi] at hplace
  exact (Option.some.inj hplace).symm

end Arrays

/-! ## Operations -/

section Operations

variable {W : Type} {api : DeskApi W} {e : Explorer} {t : Trail Location} {w : W}

/-- All but the list and the path is as it was. -/
def Relisted (e e' : Explorer) : Prop :=
  ∃ items itemCount selectedIndex pathText, e' =
    { e with items := items, itemCount := itemCount, selectedIndex := selectedIndex, pathText := pathText }

theorem Relisted.refl (e : Explorer) : Relisted e e := ⟨_, _, _, _, rfl⟩

theorem Follows.relisted {e' : Explorer} (h : Follows e t) (hlisted : Relisted e e') : Follows e' t := by
  obtain ⟨items, itemCount, selectedIndex, pathText, rfl⟩ := hlisted
  exact ⟨⟨⟨h.depth, h.depths⟩, h.count, h.index, h.length_le, h.place⟩, h.here⟩

theorem relisted_updateTexts (items : Int → Item) (itemCount selectedIndex : Int) :
    Relisted e (updateTexts
      { e with items := items, itemCount := itemCount, selectedIndex := selectedIndex }) := by
  rw [updateTexts]
  split
  all_goals exact ⟨_, _, _, _, rfl⟩

theorem relisted_refresh (e : Explorer) (w : W) :
    (refreshList api e).wp (fun e' _ => Relisted e e') w := by
  rw [refreshList]
  refine Action.wp_ite (fun _ => ?_) (fun _ => ?_)
  · rw [refreshDrives, Action.wp_bind]
    exact fun f w' _ => (Action.wp_pure _).mpr (relisted_updateTexts _ _ _)
  · rw [Action.wp_bind]
    intro entered w₁ _
    refine Action.wp_ite (fun _ => ?_) (fun _ => (Action.wp_pure _).mpr (.refl e))
    rw [Action.wp_bind]
    exact fun f w' _ => (Action.wp_pure _).mpr (relisted_updateTexts _ _ _)

/-- The trail behind an operation that leaves the window at `place`. -/
def moved (t : Trail Location) (op : Op) (place : Location) : Trail Location :=
  match op with
  | .goBack => t.back.getD t
  | .goForward => t.forward.getD t
  | _ => t.visit (by decide : 0 < 12) place

@[simp] theorem moved_goBack (place : Location) : moved t .goBack place = t.back.getD t := rfl

@[simp] theorem moved_goForward (place : Location) : moved t .goForward place = t.forward.getD t := rfl

theorem follows_visit (h : Holds e t) :
    (visit api e).wp (fun r _ => Follows r.2 (t.visit (by decide : 0 < 12) r.2.location)) w := by
  rw [visit, Action.wp_bind]
  refine Action.wp_mono (relisted_refresh _ w) (fun e' w' hlisted => (Action.wp_pure _).mpr ?_)
  have hfollows := (follows_commit h).relisted hlisted
  have hlocation : e'.location = e.location := hfollows.here.trans (Trail.here_visit _ _)
  rw [hlocation]
  exact hfollows

theorem follows_revisit (h : Holds e t) {i : Nat} (hi : i < t.places.length) :
    (revisit api e i).wp (fun r _ => Follows r.2 ⟨t.places, i, hi⟩) w := by
  rw [revisit, Action.wp_bind]
  exact Action.wp_mono (relisted_refresh _ w)
    (fun e' w' hlisted => (Action.wp_pure _).mpr ((follows_restore h hi).relisted hlisted))

theorem Follows.stays {op : Op} (h : Follows e t) (hback : op = .goBack → t.back = none)
    (hforward : op = .goForward → t.forward = none) : Follows e (moved t op e.location) := by
  have hvisit : t.visit (by decide : 0 < 12) e.location = t := by rw [Trail.visit, if_pos h.here]
  cases op with
  | goBack =>
    rw [moved, hback rfl]
    exact h
  | goForward =>
    rw [moved, hforward rfl]
    exact h
  | _ =>
    simp only [moved]
    rw [hvisit]
    exact h

theorem relisted_exec (call : Action W Bool) (e : Explorer) (w : W) :
    (exec api call e).wp (fun r _ => Relisted e r.2) w := by
  rw [exec]
  refine Action.wp_ite (fun _ => (Action.wp_pure _).mpr (.refl e)) (fun _ => ?_)
  rw [Action.wp_bind]
  intro entered w₁ _
  refine Action.wp_ite (fun _ => ?_) (fun _ => (Action.wp_pure _).mpr (.refl e))
  rw [Action.wp_bind]
  intro ok w₂ _
  rw [Action.wp_bind]
  exact Action.wp_mono (relisted_refresh e w₂) (fun e' w' hlisted => (Action.wp_pure _).mpr hlisted)

theorem canGoBack_iff (h : Holds e t) : canGoBack e = true ↔ 0 < t.cursor := by
  have hlt := t.cursor_lt
  have hcount := h.count
  have hindex := h.index
  simp only [canGoBack, Bool.and_eq_true, decide_eq_true_eq]
  omega

theorem canGoForward_iff (h : Holds e t) : canGoForward e = true ↔ t.cursor + 1 < t.places.length := by
  have hlt := t.cursor_lt
  have hcount := h.count
  have hindex := h.index
  simp only [canGoForward, Bool.and_eq_true, decide_eq_true_eq]
  omega

theorem follows_openSelected (h : Follows e t) :
    (openSelected api e).wp (fun r _ => Follows r.2 (moved t .openSelected r.2.location)) w := by
  have hstays : ∀ ok : Bool, (pure (ok, e) : Action W (Bool × Explorer)).wp
      (fun r _ => Follows r.2 (moved t .openSelected r.2.location)) w :=
    fun ok => (Action.wp_pure _).mpr (h.stays Op.noConfusion Op.noConfusion)
  rw [openSelected]
  refine Action.wp_ite (fun _ => hstays false) (fun _ => ?_)
  dsimp only
  refine Action.wp_ite (fun _ => ?_) (fun _ => ?_)
  · refine Action.wp_ite (fun _ => hstays false) (fun _ => follows_visit ?_)
    exact ⟨⟨Nat.zero_le _, h.depths⟩, h.count, h.index, h.length_le, h.place⟩
  · refine Action.wp_ite (fun _ => ?_) (fun _ => ?_)
    · refine Action.wp_ite (fun _ => hstays false) (fun hdepth => follows_visit ?_)
      exact ⟨⟨Nat.not_le.mp hdepth, h.depths⟩, h.count, h.index, h.length_le, h.place⟩
    · rw [Action.wp_bind]
      exact fun opened w' _ => (Action.wp_pure _).mpr (h.stays Op.noConfusion Op.noConfusion)

theorem follows_goUp (h : Follows e t) :
    (goUp api e).wp (fun r _ => Follows r.2 (moved t .goUp r.2.location)) w := by
  rw [goUp]
  refine Action.wp_ite (fun _ => (Action.wp_pure _).mpr (h.stays Op.noConfusion Op.noConfusion))
    (fun _ => Action.wp_ite (fun _ => follows_visit ?_) (fun _ => follows_visit ?_))
  · exact ⟨⟨h.depth, h.depths⟩, h.count, h.index, h.length_le, h.place⟩
  · exact ⟨⟨Nat.le_trans (Nat.sub_le e.depth 1) h.depth, h.depths⟩, h.count, h.index, h.length_le, h.place⟩

theorem follows_goBack (h : Follows e t) :
    (goBack api e).wp (fun r _ => Follows r.2 (moved t .goBack r.2.location)) w := by
  have hlt := t.cursor_lt
  have hindex := h.index
  rw [goBack]
  refine Action.wp_ite (fun hcan => ?_) (fun hcan => ?_)
  · have hpos := (canGoBack_iff h.toHolds).mp hcan
    have hcursor : e.historyIndex - 1 = (t.cursor - 1 : Nat) := by omega
    simp only [hcursor, moved_goBack, Trail.back, if_pos hpos]
    exact follows_revisit h.toHolds (Nat.lt_of_le_of_lt (Nat.sub_le t.cursor 1) hlt)
  · have hnone : t.back = none := by
      rw [Trail.back, if_neg (fun hpos => hcan ((canGoBack_iff h.toHolds).mpr hpos))]
    exact (Action.wp_pure _).mpr (h.stays (fun _ => hnone) Op.noConfusion)

theorem follows_goForward (h : Follows e t) :
    (goForward api e).wp (fun r _ => Follows r.2 (moved t .goForward r.2.location)) w := by
  have hindex := h.index
  rw [goForward]
  refine Action.wp_ite (fun hcan => ?_) (fun hcan => ?_)
  · have hlt := (canGoForward_iff h.toHolds).mp hcan
    have hcursor : e.historyIndex + 1 = (t.cursor + 1 : Nat) := by omega
    simp only [hcursor, moved_goForward, Trail.forward, dif_pos hlt]
    exact follows_revisit h.toHolds hlt
  · have hnone : t.forward = none := by
      rw [Trail.forward, dif_neg (fun hlt => hcan ((canGoForward_iff h.toHolds).mpr hlt))]
    exact (Action.wp_pure _).mpr (h.stays Op.noConfusion (fun _ => hnone))

theorem Follows.exec (h : Follows e t) {op : Op} {p : Action W (Bool × Explorer)}
    (hp : p.wp (fun r _ => Relisted e r.2) w) (hback : op ≠ .goBack) (hforward : op ≠ .goForward) :
    p.wp (fun r _ => Follows r.2 (moved t op r.2.location)) w := by
  refine Action.wp_mono hp (fun r _ hlisted => ?_)
  exact (h.relisted hlisted).stays (fun heq => absurd heq hback) (fun heq => absurd heq hforward)

theorem relisted_execNewFolder (name : CStr) (e : Explorer) (w : W) :
    (execNewFolder api name e).wp (fun r _ => Relisted e r.2) w := by
  rw [execNewFolder]
  exact Action.wp_ite (fun _ => (Action.wp_pure _).mpr (.refl e)) (fun _ => relisted_exec _ e w)

theorem relisted_execRename (oldName newName : CStr) (e : Explorer) (w : W) :
    (execRename api oldName newName e).wp (fun r _ => Relisted e r.2) w := by
  rw [execRename]
  exact Action.wp_ite (fun _ => (Action.wp_pure _).mpr (.refl e)) (fun _ => relisted_exec _ e w)

theorem relisted_execDelete (name : CStr) (e : Explorer) (w : W) :
    (execDelete api name e).wp (fun r _ => Relisted e r.2) w := by
  rw [execDelete]
  exact Action.wp_ite (fun _ => (Action.wp_pure _).mpr (.refl e)) (fun _ => relisted_exec _ e w)

theorem relisted_selectItem (index : Int) (e : Explorer) : Relisted e (selectItem index e) := by
  rw [selectItem]
  split
  · exact .refl e
  · exact ⟨_, _, _, _, rfl⟩

theorem follows_perform (h : Follows e t) (op : Op) :
    (perform api e op).wp (fun r _ => Follows r.2 (moved t op r.2.location)) w := by
  cases op with
  | select index =>
    have hselect : (pure (false, selectItem index e) : Action W (Bool × Explorer)).wp
        (fun r _ => Relisted e r.2) w := (Action.wp_pure _).mpr (relisted_selectItem index e)
    exact h.exec hselect Op.noConfusion Op.noConfusion
  | openSelected => exact follows_openSelected h
  | goUp => exact follows_goUp h
  | goBack => exact follows_goBack h
  | goForward => exact follows_goForward h
  | newFolder name => exact h.exec (relisted_execNewFolder name e w) Op.noConfusion Op.noConfusion
  | rename oldName newName =>
    exact h.exec (relisted_execRename oldName newName e w) Op.noConfusion Op.noConfusion
  | delete name => exact h.exec (relisted_execDelete name e w) Op.noConfusion Op.noConfusion
  | paste => exact h.exec (relisted_exec _ e w) Op.noConfusion Op.noConfusion

/-! ## Runs -/

/-- A window and its world after an operation. -/
def step (api : DeskApi W) (s : Explorer × W) (op : Op) : Option (Explorer × W) :=
  (perform api s.1 op s.2).map (fun r => (r.1.2, r.2))

theorem follows_reset (h : Shallow e) :
    Follows (historyReset e) ⟨[e.location], 0, Nat.zero_lt_one⟩ := by
  have hreset : Shallow { e with historyCount := 1, historyIndex := 0 } := ⟨h.depth, h.depths⟩
  have hplace := capture_place hreset (Int.le_refl 0) (by decide)
  have hshallow := hreset.capture 0
  rw [historyReset]
  refine ⟨⟨hshallow, capture_count _ 0, rfl, Nat.succ_le_succ (Nat.zero_le 11), fun i hi => ?_⟩,
    capture_location _ 0⟩
  have hzero : i = 0 := by simpa using hi
  subst hzero
  exact congrArg some (hplace 0).symm

theorem follows_openDesktopFolder (folderName : CStr) (created : Bool) (w : W) :
    (openDesktopFolder api folderName created).wp
      (fun r _ => Follows r.2 ⟨[(desktopFolder folderName).location], 0, Nat.zero_lt_one⟩) w := by
  have hshallow : Shallow { explorerInit with dirs := desktopDirs folderName, depth := 4 } :=
    ⟨(by decide : 4 ≤ explorerMaxDepth), fun _ => Nat.zero_le 12⟩
  rw [openDesktopFolder, Action.wp_bind]
  refine Action.wp_mono (relisted_refresh _ w) (fun e' w' hlisted => (Action.wp_pure _).mpr ?_)
  have hfollows := (follows_reset hshallow).relisted hlisted
  exact ⟨⟨⟨hfollows.depth, hfollows.depths⟩, hfollows.count, hfollows.index, hfollows.length_le,
    hfollows.place⟩, hfollows.here⟩

theorem openDesktopFolder_ok (folderName : CStr) (created : Bool) (w : W) :
    (openDesktopFolder api folderName created).wp (fun r _ => r.1 = true) w := by
  rw [openDesktopFolder, Action.wp_bind]
  exact fun _ _ _ => (Action.wp_pure _).mpr rfl

theorem follows_run {ops : List Op} {s s' : Explorer × W} (h : ∃ t, Follows s.1 t)
    (hrun : run (step api) s ops = some s') : ∃ t, Follows s'.1 t := by
  have hstep : ∀ (s : Explorer × W) (op : Op) (s' : Explorer × W), (∃ t, Follows s.1 t) →
      step api s op = some s' → ∃ t, Follows s'.1 t := by
    rintro s op s' ⟨t, ht⟩ hstep
    obtain ⟨⟨⟨ok, e'⟩, w'⟩, hperform, rfl⟩ := Option.map_eq_some_iff.mp hstep
    exact ⟨_, follows_perform ht op _ w' hperform⟩
  exact run_invariant_all hstep ops s s' h hrun

theorem revisit_ok (e : Explorer) (index : Int) : (revisit api e index).wp (fun r _ => r.1 = true) w := by
  rw [revisit, Action.wp_bind]
  exact fun _ _ _ => (Action.wp_pure _).mpr rfl

theorem goBack_ok (e : Explorer) : (goBack api e).wp (fun r _ => r.1 = canGoBack e) w := by
  rw [goBack]
  refine Action.wp_ite (fun hcan => ?_) (fun hcan => (Action.wp_pure _).mpr ?_)
  · rw [hcan]
    exact revisit_ok e _
  · exact (Bool.not_eq_true _ ▸ hcan).symm

theorem goForward_ok (e : Explorer) : (goForward api e).wp (fun r _ => r.1 = canGoForward e) w := by
  rw [goForward]
  refine Action.wp_ite (fun hcan => ?_) (fun hcan => (Action.wp_pure _).mpr ?_)
  · rw [hcan]
    exact revisit_ok e _
  · exact (Bool.not_eq_true _ ▸ hcan).symm

/-- `op` and then `op'`, when the first succeeds: the second does, and the window is where it was. -/
def Undoes (api : DeskApi W) (s : Explorer × W) (op op' : Op) : Prop :=
  ∀ e₁ w₁ ok e₂ w₂, perform api s.1 op s.2 = some ((true, e₁), w₁) →
    perform api e₁ op' w₁ = some ((ok, e₂), w₂) → ok = true ∧ e₂.location = s.1.location

theorem back_undone {s : Explorer × W} (h : Follows s.1 t) : Undoes api s .goBack .goForward := by
  intro e₁ w₁ ok e₂ w₂ hback hforward
  have hpos := (canGoBack_iff h.toHolds).mp (goBack_ok s.1 _ _ hback).symm
  obtain ⟨t₁, ht₁⟩ : ∃ t₁, t.back = some t₁ := ⟨_, if_pos hpos⟩
  have hmoved : moved t .goBack e₁.location = t₁ := by rw [moved_goBack, ht₁, Option.getD_some]
  have h₁ : Follows e₁ t₁ := hmoved ▸ follows_perform h .goBack _ _ hback
  have hundone := Trail.back_forward ht₁
  have hcan : canGoForward e₁ = true := by
    refine (canGoForward_iff h₁.toHolds).mpr (not_not.mp fun hlt => ?_)
    rw [Trail.forward, dif_neg hlt] at hundone
    cases hundone
  have h₂ : Follows e₂ (moved t₁ .goForward e₂.location) := follows_perform h₁ .goForward _ _ hforward
  rw [moved_goForward, hundone, Option.getD_some] at h₂
  exact ⟨(goForward_ok e₁ _ _ hforward).trans hcan, h₂.here.trans h.here.symm⟩

theorem forward_undone {s : Explorer × W} (h : Follows s.1 t) : Undoes api s .goForward .goBack := by
  intro e₁ w₁ ok e₂ w₂ hforward hback
  have hlt := (canGoForward_iff h.toHolds).mp (goForward_ok s.1 _ _ hforward).symm
  obtain ⟨t₁, ht₁⟩ : ∃ t₁, t.forward = some t₁ := ⟨_, dif_pos hlt⟩
  have hmoved : moved t .goForward e₁.location = t₁ := by rw [moved_goForward, ht₁, Option.getD_some]
  have h₁ : Follows e₁ t₁ := hmoved ▸ follows_perform h .goForward _ _ hforward
  have hundone := Trail.forward_back ht₁
  have hcan : canGoBack e₁ = true := by
    refine (canGoBack_iff h₁.toHolds).mpr (not_not.mp fun hpos => ?_)
    rw [Trail.back, if_neg hpos] at hundone
    cases hundone
  have h₂ : Follows e₂ (moved t₁ .goBack e₂.location) := follows_perform h₁ .goBack _ _ hback
  rw [moved_goBack, hundone, Option.getD_some] at h₂
  exact ⟨(goBack_ok e₁ _ _ hback).trans hcan, h₂.here.trans h.here.symm⟩

structure HistoryLaws (api : DeskApi W) (s : Explorer × W) (t : Trail Location) : Prop where
  bounds : 0 ≤ s.1.historyIndex ∧ s.1.historyIndex < s.1.historyCount ∧ s.1.historyCount ≤ explorerHistoryMax
  current : s.1.place s.1.historyIndex = s.1.location
  follows : Follows s.1 t
  next : ∀ op ok e' w', perform api s.1 op s.2 = some ((ok, e'), w') → Follows e' (moved t op e'.location)
  backForward : Undoes api s .goBack .goForward
  forwardBack : Undoes api s .goForward .goBack

theorem Follows.laws {s : Explorer × W} (h : Follows s.1 t) : HistoryLaws api s t := by
  have hlt := t.cursor_lt
  have hle := h.length_le
  have hcount := h.count
  have hindex := h.index
  have hplace := (h.place t.cursor hlt).symm.trans t.getElem?_cursor
  refine ⟨⟨by omega, by omega, ?_⟩, ?_, h, fun op ok e' w' => follows_perform h op _ _, back_undone h,
    forward_undone h⟩
  · rw [explorerHistoryMax]
    omega
  · rw [hindex, Option.some.inj hplace, h.here]

end Operations

/-- The history behind any operations on a window that was opened. -/
theorem history_laws {W : Type} (api : DeskApi W) (folderName : CStr) (created : Bool) (w : W) {ok : Bool}
    {s₀ s : Explorer × W} {ops : List Op}
    (hopened : openDesktopFolder api folderName created w = some ((ok, s₀.1), s₀.2))
    (hrun : run (step api) s₀ ops = some s) : ∃ t, HistoryLaws api s t := by
  obtain ⟨t, ht⟩ := follows_run ⟨_, follows_openDesktopFolder folderName created w _ _ hopened⟩ hrun
  exact ⟨t, ht.laws⟩

section Strolled

/-- Every directory can be entered and holds a directory `D`. -/
def deskApi : DeskApi Unit where
  driveValid _ := pure true
  chdir _ := pure true
  listEntry i := pure (if i = 0 then some (Name.ofStr [0x44], true) else none)
  fileRead _ _ := pure none
  mkdir _ := pure true
  renameEntry _ _ := pure true
  deleteEntry _ := pure true
  clipPaste _ := pure true

/-- Up, into `D` and back. -/
def deskStroll : List Op := [.goUp, .select 0, .openSelected, .goBack]

theorem history_laws_stroll : ∃ s₀ s : Explorer × Unit,
    openDesktopFolder deskApi [0x44] true () = some ((true, s₀.1), s₀.2) ∧
    run (step deskApi) s₀ deskStroll = some s ∧ s.1.historyCount = 3 ∧ ∃ t, HistoryLaws deskApi s t := by
  have hruns : ((openDesktopFolder deskApi [0x44] true ()).bind fun r =>
      run (step deskApi) (r.1.2, r.2) deskStroll).isSome := by
    decide +kernel
  have hcount : ∀ s ∈ (openDesktopFolder deskApi [0x44] true ()).bind fun r =>
      run (step deskApi) (r.1.2, r.2) deskStroll, s.1.historyCount = 3 := by
    decide +kernel
  obtain ⟨s, hs⟩ := Option.isSome_iff_exists.mp hruns
  obtain ⟨⟨⟨ok, e₀⟩, w₀⟩, hopened, hrun⟩ := Option.bind_eq_some_iff.mp hs
  have hok : ok = true := openDesktopFolder_ok [0x44] true () _ _ hopened
  rw [hok] at hopened
  exact ⟨(e₀, w₀), s, hopened, hrun, hcount s hs, history_laws deskApi [0x44] true () hopened hrun⟩

end Strolled

end Desk
end MiniDos
