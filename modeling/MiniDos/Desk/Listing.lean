import MiniDos.Desk.History
import MiniDos.Lib.History

/-!
# MiniDos.Desk.Listing

What the list of a window holds behind an operation.

* `Contains`: the entries of a place, as the calls list them.
* `Shows`: the list has the first of them, without `.` and `..`, as many as there is room for.
* `Fits`: the entries for which the loop of `explorer_refresh_list` finds these (`refresh_shows`).
-/

namespace MiniDos
namespace Desk

open Fat16 Transition

/-! ## Entries -/

def isDot (item : Item) : Bool := item.name == dot || item.name == dotDot

def shownEntries (es : List Item) : List Item := (es.filter (fun x => !isDot x)).take uiListviewMaxItems

/-- The entries from the `i`-th on. -/
def EntriesFrom {W : Type} (api : DeskApi W) : Nat → List Item → W → Prop
  | i, [], w => ∃ w', api.listEntry i w = some (none, w')
  | i, x :: es, w => ∃ name w', api.listEntry i w = some (some (name, x.isDir), w') ∧ name.val = x.name ∧
      EntriesFrom api (i + 1) es w'

/-- The drives among the `n` from the `i`-th on. -/
def DrivesFrom {W : Type} (api : DeskApi W) : Nat → Nat → List Item → W → Prop
  | 0, _, es, _ => es = []
  | n + 1, i, es, w => ∃ valid w' rest, api.driveValid i w = some (valid, w') ∧
      DrivesFrom api n (i + 1) rest w' ∧ es = if valid then ⟨driveName i, true⟩ :: rest else rest

def Contains {W : Type} (api : DeskApi W) (place : Location) (w : W) (es : List Item) : Prop :=
  match place with
  | .drives => DrivesFrom api 26 0 es w
  | .folder drive names => ∃ w', enterDirs api (driveName drive :: backslash :: names.map Subtype.val) w =
      some (true, w') ∧ EntriesFrom api 0 es w'

/-- The text of a place, cut to the buffer of a window. -/
def pathTextOf : Location → CStr
  | .drives => myComputer
  | .folder drive names => (driveName drive ++
      if names = [] then backslash else names.flatMap (fun name => backslash ++ name.val)).take
        (explorerPathLen - 1)

/-- A window with the entries of its place. -/
structure Shows (e : Explorer) (es : List Item) : Prop where
  count : e.itemCount = (shownEntries es).length
  item (i : Nat) (h : i < (shownEntries es).length) : (shownEntries es)[i]? = some (e.items i)
  selected : e.selectedIndex = -1 ∨ 0 ≤ e.selectedIndex ∧ e.selectedIndex < e.itemCount
  path : e.pathText = pathTextOf e.location

/-- All of the first entries that are listed are shown, or no other is. -/
structure Fits (es : List Item) : Prop where
  named : ∀ x ∈ es.take uiListviewMaxItems, x.name ≠ []
  room : (∀ x ∈ es.take uiListviewMaxItems, isDot x = false) ∨
    ∀ x ∈ es.drop uiListviewMaxItems, isDot x = true

/-! ## The path -/

theorem append_take {max : Nat} (s text : CStr) :
    (s.take max ++ text).take max = (s ++ text).take max := by
  rw [List.take_append, List.take_take, Nat.min_self, List.length_take, List.take_append]
  congr 2
  omega

theorem appendPathPart_take (s text : CStr) :
    appendPathPart explorerPathLen (s.take (explorerPathLen - 1)) text =
      (s ++ text).take (explorerPathLen - 1) := by
  rw [appendPathPart, if_neg (by decide), append_take]

theorem foldl_appendDir (drive : Nat) (dirs : Nat → Name) (n : Nat) :
    (List.range n).foldl (appendDir dirs) (driveName drive ++ backslash) =
      pathTextOf (.folder drive ((List.range n).map dirs)) := by
  induction n with
  | zero => rfl
  | succ n ih =>
    have hne : (List.range (n + 1)).map dirs ≠ [] := by simp
    rw [List.range_succ, List.foldl_append, List.foldl_cons, List.foldl_nil, ih, appendDir, pathTextOf,
      pathTextOf, ← List.range_succ, if_neg hne, List.range_succ, List.map_append, List.map_singleton,
      List.flatMap_append, List.flatMap_singleton]
    by_cases hn : n = 0
    · subst hn
      rw [if_neg (Nat.lt_irrefl 0)]
      exact appendPathPart_take (driveName drive ++ backslash) (dirs 0).val
    · have hne' : (List.range n).map dirs ≠ [] := by simpa using hn
      rw [if_pos (Nat.pos_of_ne_zero hn), if_neg hne', appendPathPart_take, appendPathPart_take]
      simp only [List.append_assoc]

theorem updateTexts_path (e : Explorer) : (updateTexts e).pathText = pathTextOf e.location := by
  rw [updateTexts, Explorer.location, located]
  split
  · rfl
  · exact foldl_appendDir e.drive e.dirs e.depth

/-! ## The loop over the entries -/

/-- The entry is put at the end of the list, unless it is left out. -/
def storeEntry (selectedName : Name) (f : Filling) (x : Item) : Filling :=
  if skipped x.name then f
  else { f.store x.name x.isDir with selected := if selectedName.val = x.name then f.count else f.selected }

section Filled

variable {W : Type} {api : DeskApi W} {selectedName : Name} {f : Filling} {es : List Item} {w : W}

theorem storeEntry_count_le (f : Filling) (x : Item) : (storeEntry selectedName f x).count ≤ f.count + 1 := by
  rw [storeEntry]
  split
  · omega
  · exact Int.le_refl _

/-- The loop stores the first of the entries, up to the bound on their number. -/
theorem wp_fillList {n i : Nat} (h : EntriesFrom api i es w) (hcount : f.count ≤ i)
    (hn : i + n = uiListviewMaxItems) :
    (fillList api selectedName n i f).wp (fun f' _ => f' = (es.take n).foldl (storeEntry selectedName) f) w := by
  induction n generalizing i es f w with
  | zero => exact (Action.wp_pure f).mpr rfl
  | succ n ih =>
    rw [fillList, Action.wp_bind]
    cases es with
    | nil =>
      obtain ⟨w', hlist⟩ := h
      intro found w'' hfound
      cases hlist.symm.trans hfound
      exact (Action.wp_pure f).mpr rfl
    | cons x es =>
      obtain ⟨name, w', hlist, hname, hrest⟩ := h
      intro found w'' hfound
      cases hlist.symm.trans hfound
      rw [List.take_succ_cons, List.foldl_cons]
      have hstored : storeEntry selectedName f x = if skipped name.val then f
          else { f.store name.val x.isDir with
            selected := if selectedName = name then f.count else f.selected } := by
        rw [storeEntry, ← hname]
        simp only [Subtype.ext_iff]
      have hnext : i + 1 + n = uiListviewMaxItems := by omega
      have hcount' : (storeEntry selectedName f x).count ≤ f.count + 1 := storeEntry_count_le f x
      rw [hstored] at hcount' ⊢
      refine Action.wp_ite (fun hskip => ?_) (fun hkeep => ?_)
      · rw [if_pos hskip]
        exact ih hrest (by omega) hnext
      · rw [if_neg hkeep] at hcount' ⊢
        refine Action.wp_ite (fun hfull => (Action.wp_pure _).mpr ?_) (fun _ => ih hrest (by omega) hnext)
        -- the list is full with the last round
        have hlast : n = 0 := by omega
        rw [hlast, List.take_zero, List.foldl_nil]

/-- What the loops leave: the entries kept, from the first on, and the selection among them. -/
structure Filled (f f' : Filling) (kept : List Item) : Prop where
  count : f'.count = f.count + kept.length
  item (i : Nat) (h : i < kept.length) : kept[i]? = some (f'.items (f.count + i))
  before (i : Int) (h : i < f.count) : f'.items i = f.items i
  selected : f'.selected = f.selected ∨ f.count ≤ f'.selected ∧ f'.selected < f'.count

theorem Filled.refl (f : Filling) : Filled f f [] :=
  ⟨by simp, fun i h => absurd h (Nat.not_lt_zero i), fun _ _ => rfl, .inl rfl⟩

theorem Filled.store {x : Item} (hname : x.name.length < uiListviewItemNameMax) {f' : Filling}
    {kept : List Item} {selected : Int} (hselected : selected = f.selected ∨ selected = f.count)
    (h : Filled { f.store x.name x.isDir with selected := selected } f' kept) : Filled f f' (x :: kept) := by
  have hcount := h.count
  have hfirst : f'.items f.count = x := by
    rw [h.before f.count (Int.lt_succ f.count)]
    simp only [Filling.store, Function.update_self]
    rw [strCopy, List.take_of_length_le (by omega)]
  simp only [Filling.store] at hcount
  refine ⟨?_, fun i hi => ?_, fun i hi => ?_, ?_⟩
  · rw [hcount, List.length_cons]
    omega
  · cases i with
    | zero =>
      rw [List.getElem?_cons_zero, Int.natCast_zero, Int.add_zero, hfirst]
    | succ i =>
      have hitem := h.item i (Nat.lt_of_succ_lt_succ hi)
      rw [List.getElem?_cons_succ, hitem]
      congr 2
      simp only [Filling.store]
      omega
  · rw [h.before i (Int.lt_trans hi (Int.lt_succ f.count))]
    exact Function.update_of_ne (Int.ne_of_lt hi) _ _
  · have hsel := h.selected
    simp only [Filling.store] at hsel
    omega

theorem filled_foldl (hnames : ∀ x ∈ es, x.name.length < uiListviewItemNameMax) (f : Filling) :
    Filled f (es.foldl (storeEntry selectedName) f) (es.filter (fun x => !skipped x.name)) := by
  induction es generalizing f with
  | nil => exact .refl f
  | cons x es ih =>
    have hrest := ih (fun y hy => hnames y (List.mem_cons_of_mem x hy))
    rw [List.foldl_cons, storeEntry]
    by_cases hskip : skipped x.name = true
    · rw [if_pos hskip, List.filter_cons_of_neg (by simpa using hskip)]
      exact hrest f
    · rw [if_neg hskip, List.filter_cons_of_pos (by simpa using hskip)]
      refine Filled.store (hnames x List.mem_cons_self) ?_ (hrest _)
      split
      · exact .inr rfl
      · exact .inl rfl

theorem wp_fillDrives {n i : Nat} (h : DrivesFrom api n i es w) (hcount : f.count + n ≤ uiListviewMaxItems) :
    (fillDrives api n i f).wp (fun f' _ => Filled f f' es) w := by
  induction n generalizing i es f w with
  | zero =>
    cases h
    exact (Action.wp_pure f).mpr (.refl f)
  | succ n ih =>
    obtain ⟨valid, w', rest, hvalid, hrest, rfl⟩ := h
    rw [fillDrives, if_pos (by omega), Action.wp_bind]
    intro valid' w'' hvalid'
    cases hvalid.symm.trans hvalid'
    cases valid with
    | false => exact ih hrest (by omega)
    | true =>
      have hname : (driveName i).length < uiListviewItemNameMax := by
        show 2 < 32
        decide
      have hstored : (f.store (driveName i) true).count + n ≤ uiListviewMaxItems := by
        simp only [Filling.store]
        omega
      exact Action.wp_mono (ih hrest hstored) (fun f' _ hfilled => Filled.store hname (.inl rfl) hfilled)

end Filled

/-! ## The list behind a refresh -/

section Refreshed

variable {W : Type} {api : DeskApi W} {es : List Item} {w : W} {e : Explorer}

theorem names_of_entries {i : Nat} (h : EntriesFrom api i es w) :
    ∀ x ∈ es, x.name.length < uiListviewItemNameMax := by
  induction es generalizing i w with
  | nil => simp
  | cons x es ih =>
    obtain ⟨name, w', _, hname, hrest⟩ := h
    rw [List.forall_mem_cons, ← hname]
    exact ⟨Nat.lt_of_le_of_lt name.property (by decide), ih hrest⟩

theorem drives_named {n i : Nat} (h : DrivesFrom api n i es w) :
    es.length ≤ n ∧ ∀ x ∈ es, x.name ≠ [] ∧ isDot x = false := by
  induction n generalizing i es w with
  | zero =>
    cases h
    simp
  | succ n ih =>
    obtain ⟨valid, w', rest, _, hrest, rfl⟩ := h
    obtain ⟨hlength, hnames⟩ := ih hrest
    cases valid with
    | false => exact ⟨Nat.le_succ_of_le hlength, hnames⟩
    | true =>
      refine ⟨Nat.succ_le_succ hlength, List.forall_mem_cons.mpr ⟨⟨by simp [driveName], ?_⟩, hnames⟩⟩
      simp [isDot, driveName, dot, dotDot, chDot]

theorem shows_iff {kept : List Item} (hcount : e.itemCount = kept.length)
    (hitem : ∀ i < kept.length, kept[i]? = some (e.items i))
    (hselected : e.selectedIndex = -1 ∨ 0 ≤ e.selectedIndex ∧ e.selectedIndex < e.itemCount)
    (hpath : e.pathText = pathTextOf e.location) : Shows e es ↔ kept = shownEntries es := by
  constructor
  · intro h
    have hlength : kept.length = (shownEntries es).length := by
      have := h.count
      omega
    refine List.ext_getElem? (fun i => ?_)
    by_cases hi : i < kept.length
    · rw [hitem i hi, h.item i (hlength ▸ hi)]
    · rw [List.getElem?_eq_none (Nat.not_lt.mp hi), List.getElem?_eq_none (hlength ▸ Nat.not_lt.mp hi)]
  · rintro rfl
    exact ⟨hcount, hitem, hselected, hpath⟩

theorem fits_iff : Fits es ↔
    (es.take uiListviewMaxItems).filter (fun x => !skipped x.name) = shownEntries es := by
  have himp : ∀ x : Item, (!skipped x.name) = true → (!isDot x) = true := by
    intro x
    simp only [skipped, isDot, Bool.not_or, Bool.and_eq_true]
    exact fun h => ⟨h.1.2, h.2⟩
  have hskip : ∀ x : Item, ((!isDot x) = true → (!skipped x.name) = true) ↔ x.name ≠ [] := by
    intro x
    by_cases hempty : x.name = []
    · simp [skipped, isDot, hempty, dot, dotDot]
    · simp [skipped, isDot, hempty]
  rw [shownEntries, Front.filter_take_eq_iff himp, forall₂_congr (fun x _ => hskip x)]
  simp only [Bool.not_eq_true', Bool.not_eq_false]
  exact ⟨fun h => ⟨h.named, h.room⟩, fun h => ⟨h.1, h.2⟩⟩

theorem drives_shown {n i : Nat} (h : DrivesFrom api n i es w) (hn : n ≤ uiListviewMaxItems) :
    shownEntries es = es ∧ Fits es := by
  obtain ⟨hlength, hnames⟩ := drives_named h
  have hdots : es.filter (fun x => !isDot x) = es := by
    refine List.filter_eq_self.mpr (fun x hx => ?_)
    rw [(hnames x hx).2, Bool.not_false]
  rw [shownEntries, hdots, List.take_of_length_le (Nat.le_trans hlength hn)]
  exact ⟨rfl, fun x hx => (hnames x (List.mem_of_mem_take hx)).1,
    .inl (fun x hx => (hnames x (List.mem_of_mem_take hx)).2)⟩

theorem location_updateTexts (e : Explorer) : (updateTexts e).location = e.location := by
  rw [updateTexts]
  split
  all_goals rfl

theorem filled_shows {f : Filling} {kept : List Item} {selected : Int}
    (hfilled : Filled ⟨e.items, 0, -1⟩ f kept)
    (hselected : selected = -1 ∨ 0 ≤ selected ∧ selected < f.count) :
    Shows (updateTexts { e with items := f.items, itemCount := f.count, selectedIndex := selected }) es ↔
      kept = shownEntries es := by
  obtain ⟨e', he'⟩ : ∃ e', e' = { e with
      items := f.items, itemCount := f.count, selectedIndex := selected } := ⟨_, rfl⟩
  have hlist : (updateTexts e').items = f.items ∧ (updateTexts e').itemCount = f.count ∧
      (updateTexts e').selectedIndex = selected := by
    rw [he', updateTexts]
    split
    all_goals exact ⟨rfl, rfl, rfl⟩
  have hcount := hfilled.count
  rw [← he']
  refine shows_iff ?_ (fun i hi => ?_) ?_ ?_
  · rw [hlist.2.1, hcount, Int.zero_add]
  · rw [hlist.1, hfilled.item i hi, Int.zero_add]
  · rw [hlist.2.1, hlist.2.2]
    exact hselected
  · rw [updateTexts_path, location_updateTexts]

theorem refresh_shows (h : Contains api e.location w es) :
    (refreshList api e).wp (fun e' _ => e'.location = e.location ∧ (Shows e' es ↔ Fits es)) w := by
  rw [refreshList]
  by_cases hdrives : e.showingDrives = true
  · rw [if_pos hdrives, refreshDrives, Action.wp_bind]
    rw [Explorer.location, located, if_pos hdrives] at h
    have hroom : (0 : Int) + (26 : Nat) ≤ uiListviewMaxItems := by decide
    refine Action.wp_mono (wp_fillDrives h hroom) (fun f w' hfilled => (Action.wp_pure _).mpr ?_)
    obtain ⟨hshown, hfits⟩ := drives_shown h (by decide)
    refine ⟨location_updateTexts _, iff_of_true ((filled_shows hfilled ?_).mpr hshown.symm) hfits⟩
    split <;> omega
  · rw [if_neg hdrives, Action.wp_bind]
    rw [Explorer.location, located, if_neg hdrives] at h
    obtain ⟨w', henter, hentries⟩ := h
    intro entered w'' hentered
    rw [List.map_map] at henter
    cases henter.symm.trans hentered
    rw [if_pos rfl, Action.wp_bind]
    refine Action.wp_mono (wp_fillList hentries (Int.le_refl 0) (Nat.zero_add _)) ?_
    rintro _ w₂ rfl
    have hnames : ∀ x ∈ es.take uiListviewMaxItems, x.name.length < uiListviewItemNameMax :=
      fun x hx => names_of_entries hentries x (List.mem_of_mem_take hx)
    have hfilled := @filled_foldl (selectedName e) _ hnames ⟨e.items, 0, -1⟩
    refine (Action.wp_pure _).mpr ⟨location_updateTexts _, (filled_shows hfilled ?_).trans fits_iff.symm⟩
    split_ifs <;> omega

/-- The window shows what its place holds in the world `w`, as far as that fits. -/
def Listed (api : DeskApi W) (w : W) (e : Explorer) : Prop :=
  ∀ es, Contains api e.location w es → (Shows e es ↔ Fits es)

theorem refresh_listed (e : Explorer) (w : W) : (refreshList api e).wp (fun e' _ => Listed api w e') w := by
  intro e' w' hrefresh es hcontains
  have hlocation : e'.location = e.location := by
    obtain ⟨_, _, _, _, rfl⟩ := relisted_refresh e w e' w' hrefresh
    rfl
  rw [hlocation] at hcontains
  exact (refresh_shows hcontains e' w' hrefresh).2

end Refreshed

/-! ## Operations -/

section Operations

variable {W : Type} (api : DeskApi W)

/-- What an operation does to the directory before it is listed again. -/
def Op.change (e : Explorer) : Op → Action W Unit
  | .newFolder name => inDir (api.mkdir name)
  | .rename oldName newName => inDir (api.renameEntry oldName newName)
  | .delete name => inDir (api.deleteEntry name)
  | .paste => inDir (api.clipPaste [])
  | _ => pure ()
where
  inDir (call : Action W Bool) : Action W Unit := do
    let _ ← enterExplorerDir api e
    let _ ← call
    pure ()

/-- The selected file is opened in a window of its own. -/
def Views (e : Explorer) (op : Op) : Prop :=
  op = .openSelected ∧ e.showingDrives = false ∧ (e.items e.selectedIndex).isDir = false

variable {api} {e : Explorer} {w : W}

theorem visit_listed : (visit api e).wp (fun r _ => Listed api w r.2) w := by
  rw [visit, Action.wp_bind]
  exact Action.wp_mono (refresh_listed _ w) (fun _ _ h => (Action.wp_pure _).mpr h)

theorem revisit_listed (index : Int) : (revisit api e index).wp (fun r _ => Listed api w r.2) w := by
  rw [revisit, Action.wp_bind]
  exact Action.wp_mono (refresh_listed _ w) (fun _ _ h => (Action.wp_pure _).mpr h)

theorem refused {Q : Bool × Explorer → Prop} :
    (pure (false, e) : Action W (Bool × Explorer)).wp (fun r _ => r.1 = true → Q r) w :=
  (Action.wp_pure _).mpr (fun h => absurd h Bool.false_ne_true)

theorem exec_listed (call : Action W Bool) : (exec api call e).wp (fun r _ => r.1 = true →
    ∀ w₁, Op.change.inDir api e call w = some ((), w₁) → Listed api w₁ r.2) w := by
  rw [exec]
  refine Action.wp_ite (fun _ => refused) (fun _ => ?_)
  rw [Action.wp_bind]
  intro entered w₂ henter
  refine Action.wp_ite (fun _ => ?_) (fun _ => refused)
  rw [Action.wp_bind]
  intro ok w₃ hcall
  rw [Action.wp_bind]
  refine Action.wp_mono (refresh_listed e w₃) (fun e' w' hlisted => (Action.wp_pure _).mpr ?_)
  intro _ w₁ hchange
  have hrun : Op.change.inDir api e call w = some ((), w₃) := by
    show (enterExplorerDir api e w).bind _ = _
    rw [henter, Option.bind_some]
    show (call w₂).bind _ = _
    rw [hcall]
    rfl
  cases hrun.symm.trans hchange
  exact hlisted

/-- One operation. -/
theorem perform_listed (op : Op) : (perform api e op).wp (fun r _ => r.1 = true → ¬ Views e op →
    ∀ w₁, op.change api e w = some ((), w₁) → Listed api w₁ r.2) w := by
  have hquiet : ∀ {p : Action W (Bool × Explorer)}, p.wp (fun r _ => Listed api w r.2) w →
      p.wp (fun r _ => r.1 = true → ¬ Views e op →
        ∀ w₁, (pure () : Action W Unit) w = some ((), w₁) → Listed api w₁ r.2) w := by
    intro p hp
    refine Action.wp_mono hp (fun r w' hlisted _ _ w₁ hsame => ?_)
    cases hsame
    exact hlisted
  cases op with
  | select index => exact (Action.wp_pure _).mpr (fun h => absurd h Bool.false_ne_true)
  | openSelected =>
    rw [perform, openSelected]
    refine Action.wp_ite (fun _ => refused) (fun _ => ?_)
    dsimp only
    refine Action.wp_ite (fun _ => ?_) (fun hfolder => ?_)
    · exact Action.wp_ite (fun _ => refused) (fun _ => hquiet visit_listed)
    · refine Action.wp_ite (fun _ => ?_) (fun hfile => ?_)
      · exact Action.wp_ite (fun _ => refused) (fun _ => hquiet visit_listed)
      · intro r w' _ _ hviews
        exact absurd ⟨rfl, Bool.eq_false_iff.mpr hfolder, Bool.eq_false_iff.mpr hfile⟩ hviews
  | goUp =>
    rw [perform, goUp]
    exact Action.wp_ite (fun _ => refused)
      (fun _ => Action.wp_ite (fun _ => hquiet visit_listed) (fun _ => hquiet visit_listed))
  | goBack =>
    rw [perform, goBack]
    exact Action.wp_ite (fun _ => hquiet (revisit_listed _)) (fun _ => refused)
  | goForward =>
    rw [perform, goForward]
    exact Action.wp_ite (fun _ => hquiet (revisit_listed _)) (fun _ => refused)
  | newFolder name =>
    rw [perform, execNewFolder]
    exact Action.wp_ite (fun _ => refused)
      (fun _ => Action.wp_mono (exec_listed _) (fun r w' h hok _ => h hok))
  | rename oldName newName =>
    rw [perform, execRename]
    exact Action.wp_ite (fun _ => refused)
      (fun _ => Action.wp_mono (exec_listed _) (fun r w' h hok _ => h hok))
  | delete name =>
    rw [perform, execDelete]
    exact Action.wp_ite (fun _ => refused)
      (fun _ => Action.wp_mono (exec_listed _) (fun r w' h hok _ => h hok))
  | paste => exact Action.wp_mono (exec_listed _) (fun r w' h hok _ => h hok)

theorem openDesktopFolder_shows (folderName : CStr) (created : Bool) :
    (openDesktopFolder api folderName created).wp (fun r _ => ∀ es, ¬ Shows r.2 es) w := by
  rw [openDesktopFolder, Action.wp_bind]
  refine fun e w' _ => (Action.wp_pure _).mpr (fun es h => ?_)
  have hselected : (0 : Int) = -1 ∨ (0 : Int) ≤ 0 ∧ (0 : Int) < 0 := h.selected
  omega

end Operations

/-! ## Runs -/

section Runs

variable {W : Type} (api : DeskApi W)

/-- The world in which the directory is listed again. -/
def Behind (s : Desktop × W) (event : Event) (w₁ : W) : Prop :=
  match event with
  | .operate i op => op.change api (s.1.slots i) s.2 = some ((), w₁)
  | _ => w₁ = s.2

def Relists (s : Desktop × W) (event : Event) : Prop := ∀ i op, event = .operate i op → ¬ Views (s.1.slots i) op

/-- Behind an operation that returns 1 its window shows the entries of its place, if and only if `P`. -/
def ListingLaw (P : Event → List Item → Prop) (s : Desktop × W) (event : Event) (s' : Desktop × W) : Prop :=
  ∀ i, s'.1.done = some i → Relists s event → ∀ w₁, Behind api s event w₁ →
    ∀ es, Contains api (s'.1.slots i).location w₁ es → (Shows (s'.1.slots i) es ↔ P event es)

/-- The operation does not open a window, and the entries fit. -/
def Lists (event : Event) (es : List Item) : Prop :=
  (∀ folderName created, event ≠ .openFolder folderName created) ∧ Fits es

variable {api}

theorem step_opened {s s' : Desktop × W} {folderName : CStr} {created : Bool}
    (hstep : deskStep api s (.openFolder folderName created) = some s') (i : Nat) (hdone : s'.1.done = some i)
    (es : List Item) : ¬ Shows (s'.1.slots i) es := by
  suffices hwp : (deskPerform api s.1 (.openFolder folderName created)).wp
      (fun d _ => ∀ i, d.done = some i → ∀ es, ¬ Shows (d.slots i) es) s.2 from
    hwp s'.1 s'.2 hstep i hdone es
  have hnone : (pure { s.1 with done := none } : Action W Desktop).wp
      (fun d _ => ∀ i, d.done = some i → ∀ es, ¬ Shows (d.slots i) es) s.2 := by
    refine (Action.wp_pure _).mpr (fun i h => ?_)
    cases h
  rw [deskPerform]
  refine Action.wp_ite (fun _ => hnone) (fun _ => ?_)
  cases allocWindowSlot s.1 with
  | none => exact hnone
  | some slot =>
    rw [Action.wp_bind]
    refine Action.wp_mono (openDesktopFolder_shows folderName created) (fun r w' hempty => ?_)
    refine (Action.wp_pure _).mpr (fun i h es => ?_)
    cases h
    simp only [Function.update_self]
    exact hempty es

theorem step_operated {s s' : Desktop × W} {i j : Nat} {op : Op}
    (hstep : deskStep api s (.operate i op) = some s') (hdone : s'.1.done = some j)
    (hviews : ¬ Views (s.1.slots i) op) {w₁ : W} (hchange : op.change api (s.1.slots i) s.2 = some ((), w₁)) :
    Listed api w₁ (s'.1.slots j) := by
  suffices hwp : (deskPerform api s.1 (.operate i op)).wp
      (fun d _ => d.done = some j → Listed api w₁ (d.slots j)) s.2 from hwp s'.1 s'.2 hstep hdone
  rw [deskPerform, Action.wp_bind]
  refine Action.wp_mono (perform_listed op) (fun r w' hlisted => (Action.wp_pure _).mpr ?_)
  intro h
  obtain ⟨hok, rfl⟩ : r.1 = true ∧ i = j := by
    simpa using h
  simp only [Function.update_self]
  exact hlisted hok hviews w₁ hchange

theorem step_listed {s s' : Desktop × W} {event : Event} (hstep : deskStep api s event = some s') :
    ListingLaw api Lists s event s' := by
  intro j hdone hrelists w₁ hbehind es hcontains
  cases event with
  | openFolder folderName created =>
    exact iff_of_false (step_opened hstep j hdone es) (fun h => h.1 folderName created rfl)
  | operate i op =>
    rw [step_operated hstep hdone (hrelists i op rfl) hbehind es hcontains]
    exact (and_iff_right (fun _ _ => Event.noConfusion)).symm
  | close i =>
    cases hstep
    cases hdone

/-- Every operation of every run. -/
theorem listing_iff (api : DeskApi W) (w : W) (events : List Event) :
    Along (deskStep api) (ListingLaw api Lists) (explorerInitAll, w) events :=
  along_of_step (fun _ _ _ => step_listed) events (explorerInitAll, w)

theorem deskApi_enters (names : List CStr) : enterDirs deskApi names () = some (true, ()) := by
  induction names with
  | nil => rfl
  | cons name names ih => exact ih

theorem deskApi_contains {place : Location} (h : place ≠ .drives) :
    Contains deskApi place () [⟨[0x44], true⟩] := by
  cases place with
  | drives => exact absurd rfl h
  | folder drive names =>
    exact ⟨(), deskApi_enters _, Name.ofStr [0x44], (), rfl, rfl, (), rfl⟩

/-- The folder `D` is opened, and its window shows nothing. -/
theorem listing_emptied : ¬ ∀ (W : Type) (api : DeskApi W) (w : W) (events : List Event),
    Along (deskStep api) (ListingLaw api (fun _ _ => True)) (explorerInitAll, w) events := by
  intro h
  have hruns : (deskStep deskApi (explorerInitAll, ()) (.openFolder [0x44] true)).isSome := by
    decide +kernel
  have hopened : ∀ s' ∈ deskStep deskApi (explorerInitAll, ()) (.openFolder [0x44] true),
      s'.1.done = some 0 ∧ (s'.1.slots 0).location ≠ .drives := by
    decide +kernel
  obtain ⟨s', hstep⟩ := Option.isSome_iff_exists.mp hruns
  obtain ⟨hdone, hplace⟩ := hopened s' hstep
  have hlaw := (h Unit deskApi () [.openFolder [0x44] true] s' hstep).1
  have hshows := hlaw 0 hdone (fun _ _ => Event.noConfusion) () rfl _ (deskApi_contains hplace)
  exact step_opened hstep 0 hdone _ (hshows.mpr trivial)

end Runs

end Desk
end MiniDos
