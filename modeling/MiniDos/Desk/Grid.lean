import MiniDos.Lib.Plane
import MiniDos.Desk.Resize
import MiniDos.Ui.Damage
import MiniDos.Ui.Hold

/-!
# MiniDos.Desk.Grid

The list of a file window is drawn as a grid and clicked as one: `draw_explorer_grid` and
`explorer_hit_test_item_in` of `win95_explorer.c`.

* `explorerLattice`: the cells of the grid. Only whole columns and rows of it are drawn, and at least one.
* `Aligned`: the visible part of a list, if it has one, starts where the list starts and has as many columns
  and rows.
* `hitTest_iff`: a point hits what is drawn there, unless a cell lies there that is drawn and not hit, or
  hit and not drawn.
-/

namespace MiniDos
namespace Desk

open Video Ui Plane

variable {control : Control} {w : Window}

def explorerMenuH : Int := 18
def explorerToolbarH : Int := 28
def explorerAddrH : Int := 22
def explorerSidebarW : Int := 140
def explorerGridCellW : Int := 76
def explorerGridCellH : Int := 64

def wholeCells (cell len : Int) : Int :=
  let n := len.tdiv cell
  if n < 1 then 1 else n

def explorerGridColumnsForWidth (width : Int) : Int := wholeCells explorerGridCellW width

/-- The rows of `explorer_grid_visible_count_for_bounds` and of `draw_explorer_grid`. -/
def explorerGridRows (height : Int) : Int := wholeCells explorerGridCellH height

def explorerGridVisibleCountForBounds (bounds : Rect) : Int :=
  int32 (explorerGridColumnsForWidth bounds.w * explorerGridRows bounds.h)

/-! ## The list of a window -/

/-- `ui_listview_item_t`. -/
structure ListviewItem where
  name : List UInt8
  isDir : Bool

/-- `ui_listview_t`. -/
structure Listview where
  items : List ListviewItem
  itemCount : Int
  scrollOffset : Int
  selectedIndex : Int
  visibleCount : Int

/-- The fields of `explorer_state_t` for it. -/
structure ExplorerList where
  listviewId : Int
  listview : Listview

/-- The list in a client area, as `explorer_relayout_window` leaves it. -/
def explorerListBounds (client : Rect) : Rect :=
  let statusY := client.h - 22
  let listX := 12 + explorerSidebarW + 10
  let listY := 6 + (explorerMenuH + explorerToolbarH + explorerAddrH)
  let listW := client.w - listX - 12
  let listH := statusY - listY - 6
  ⟨listX, listY, if listW < 40 then 40 else listW, if listH < 40 then 40 else listH⟩

def listControl (wm : Manager) (explorer : ExplorerList) : Option Control := do
  if explorer.listviewId = 0 then none
  else
    let i ← findControl wm explorer.listviewId
    let control ← wm.controls[i]?
    if control.type = .listview then some control else none

def explorerUpdateGridVisibleCount (wm : Manager) (explorer : ExplorerList) : ExplorerList :=
  match listControl wm explorer with
  | none => explorer
  | some control =>
    { explorer with
      listview :=
        { explorer.listview with
          visibleCount := explorerGridVisibleCountForBounds (controlAbsBounds wm control) } }

def setBounds (bounds : Rect) (control : Control) : Control := { control with bounds := bounds }

/-- The list in `explorer_relayout_window`, for a window that was found. -/
def relayoutList (wm : Manager) (explorer : ExplorerList) (win : WmWindow) : Manager × ExplorerList :=
  let bounds := explorerListBounds (windowClientRect win.window)
  let wm :=
    match findControl wm explorer.listviewId with
    | none => wm
    | some i => wm.modifyControl i (setBounds bounds)
  (wm, explorerUpdateGridVisibleCount wm explorer)

def explorerRelayoutWindow (wm : Manager) (explorer : ExplorerList) (windowId : Int) : Manager × ExplorerList :=
  match (findWindow wm windowId).bind (fun i => wm.windows[i]?) with
  | none => (wm, explorer)
  | some win => if win.visible then relayoutList wm explorer win else (wm, explorer)

/-! ## The hit test -/

def listed (lv : Listview) (itemIndex : Int) : Prop := 0 ≤ itemIndex ∧ itemIndex < lv.itemCount

instance (lv : Listview) (itemIndex : Int) : Decidable (listed lv itemIndex) := inferInstanceAs (Decidable (_ ∧ _))

/-- `explorer_hit_test_item_in`, for a list with these bounds. -/
def hitTestItem (lv : Listview) (absBounds : Rect) (x y : Int) : Int :=
  if !rectContains absBounds x y then -1
  else
    let row := (int32 (y - absBounds.y)).tdiv explorerGridCellH
    let itemIndex := int32 (lv.scrollOffset + row * explorerGridColumnsForWidth absBounds.w +
      (int32 (x - absBounds.x)).tdiv explorerGridCellW)
    if listed lv itemIndex then itemIndex else -1

def explorerHitTestItemIn (wm : Manager) (explorer : ExplorerList) (x y : Int) : Int :=
  match listControl wm explorer with
  | none => -1
  | some control => hitTestItem explorer.listview (controlAbsBounds wm control) x y

/-! ## The drawing -/

structure GridItem where
  itemIndex : Int
  selected : Bool
  cell : Rect
  deriving DecidableEq

def gridCell (bounds : Rect) (slot : Int) : Rect :=
  let columns := explorerGridColumnsForWidth bounds.w
  ⟨int32 (bounds.x + slot.tmod columns * explorerGridCellW),
    int32 (bounds.y + slot.tdiv columns * explorerGridCellH), explorerGridCellW, explorerGridCellH⟩

/-- One turn of the loop. -/
def drawSlot (lv : Listview) (bounds clip : Rect) (slot : Int) : Option GridItem :=
  let itemIndex := int32 (lv.scrollOffset + slot)
  let cell := gridCell bounds slot
  if ¬ listed lv itemIndex then none
  else if rectIsEmpty (rectIntersect cell clip) then none
  else some ⟨itemIndex, itemIndex == lv.selectedIndex, cell⟩

def drawExplorerGrid (lv : Listview) (bounds clip : Rect) : List GridItem :=
  (List.range (explorerGridVisibleCountForBounds bounds).toNat).filterMap fun slot : Nat =>
    drawSlot lv bounds clip slot

def repainted (wm : Manager) (control : Control) (rect : Rect) : Bool :=
  control.visible && !rectIsEmpty (rectIntersect rect (controlVisibleBounds wm control))

def repaintGrid (wm : Manager) (explorer : ExplorerList) (rect : Rect) : List GridItem :=
  match listControl wm explorer with
  | none => []
  | some control =>
    if repainted wm control rect then drawExplorerGrid explorer.listview (controlVisibleBounds wm control) rect
    else []

/-! ## The visible part -/

theorem wholeCells_pos {k n : Int} : 0 < wholeCells k n := by
  simp only [wholeCells]
  split <;> omega

theorem wholeCells_of_lt {k n : Int} (hn : 0 ≤ n) (h : n < k) : wholeCells k n = 1 := by
  simp [wholeCells, Int.tdiv_eq_zero_of_lt hn h]

/-- A sum that wraps ends before it starts. -/
theorem sum_unwrapped {c n o len list : Int} (hc : FitsInt c) (hn : FitsInt n) (hn0 : 0 ≤ n)
    (ho : 0 ≤ o ∧ o < 2 ^ 20) (hlen : 40 ≤ len ∧ len < 2 ^ 31) (hlist : list = int32 (c + o))
    (hne : max list c < min (int32 (list + len)) (int32 (c + n))) :
    list = c + o ∧ int32 (list + len) = list + len ∧ int32 (c + n) = c + n ∧ FitsInt (c + n) := by
  have hlistFits := int32_range (c + o)
  have hendFits := int32_range (c + n)
  rw [← hlist] at hlistFits
  unfold FitsInt at hc hn hlistFits hendFits ⊢
  obtain ⟨hstart, hend⟩ := max_lt_iff.mp hne
  obtain ⟨h1, h2⟩ := lt_min_iff.mp hstart
  obtain ⟨h3, h4⟩ := lt_min_iff.mp hend
  clear hne hstart hend
  have hs := int32_sum (n := c + o) (by omega) (by omega)
  have he := int32_sum (n := c + n) (by omega) (by omega)
  have hl := int32_sum (n := list + len) (by omega) (by omega)
  omega

/-- One side of the visible part: it starts where the list starts, and has as many cells. -/
theorem visible_side {c n o m k low high : Int} (hc : FitsInt c) (hn : FitsInt n) (hn0 : 0 ≤ n)
    (ho : 0 ≤ o ∧ o ≤ m ∧ m < 2 ^ 20) (hk : 40 < k) {list len : Int} (hlist : list = int32 (c + o))
    (hlen : len = if n - m < 40 then 40 else n - m) (hlow : low = if list > c then list else c)
    (hhigh : high = if int32 (list + len) < int32 (c + n) then int32 (list + len) else int32 (c + n))
    (hne : low < high) :
    low = list ∧ int32 (high - low) = high - low ∧ FitsInt high ∧
      wholeCells k (high - low) = wholeCells k len := by
  have hlenFits : 40 ≤ len ∧ len < 2 ^ 31 := by
    unfold FitsInt at hn
    rw [hlen]
    split <;> omega
  rw [ite_gt_max] at hlow
  rw [ite_lt_min] at hhigh
  obtain ⟨hlistEq, hlast, hend, hendFits⟩ :=
    sum_unwrapped hc hn hn0 ⟨ho.1, ho.2.1.trans_lt ho.2.2⟩ hlenFits hlist (hhigh ▸ hlow ▸ hne)
  rw [hlast, hend] at hhigh
  have hlowEq : low = list := hlow.trans (max_eq_left (by omega))
  have hwide : high ≤ list + len := hhigh ▸ min_le_left _ _
  have hinside : high ≤ c + n := hhigh ▸ min_le_right _ _
  clear hlow hlist hlast hend
  rw [hlowEq] at hne ⊢
  refine ⟨rfl, int32_span ⟨by omega, hlenFits.2⟩ (le_refl _) hwide hne, ?_, ?_⟩
  · unfold FitsInt at hc hendFits ⊢
    omega
  · by_cases hsmall : n - m < 40
    · rw [if_pos hsmall] at hlen
      rw [wholeCells_of_lt (by omega) (by omega), wholeCells_of_lt (by omega) (by omega)]
    · rw [if_neg hsmall] at hlen
      congr 1
      omega

def listIn (client : Rect) : Rect :=
  let bounds := explorerListBounds client
  ⟨int32 (client.x + bounds.x), int32 (client.y + bounds.y), bounds.w, bounds.h⟩

/-- The grid of the visible part is that of the list. -/
structure Aligned (absBounds visible : Rect) : Prop where
  x : visible.x = absBounds.x
  y : visible.y = absBounds.y
  columns : explorerGridColumnsForWidth visible.w = explorerGridColumnsForWidth absBounds.w
  rows : explorerGridRows visible.h = explorerGridRows absBounds.h
  right : FitsInt visible.right
  bottom : FitsInt visible.bottom
  solid : visible.Solid

structure ClientArea (client : Rect) : Prop extends FitsRect client where
  w_nonneg : 0 ≤ client.w
  h_nonneg : 0 ≤ client.h

theorem windowClientRect_area (h : FitsRect w.bounds) : ClientArea (windowClientRect w) := by
  obtain ⟨hx, hy, hw, hh⟩ := h
  have hclip : ∀ n, FitsInt n → FitsInt (if n < 0 then 0 else n) ∧ 0 ≤ if n < 0 then 0 else n := by
    intro n hn
    unfold FitsInt at *
    split <;> omega
  unfold windowClientRect
  split
  · exact ⟨⟨hx, int32_range _, (hclip _ hw).1, (hclip _ (int32_range _)).1⟩, (hclip _ hw).2,
      (hclip _ (int32_range _)).2⟩
  · exact ⟨⟨int32_range _, int32_range _, (hclip _ (int32_range _)).1, (hclip _ (int32_range _)).1⟩,
      (hclip _ (int32_range _)).2, (hclip _ (int32_range _)).2⟩

theorem explorerListBounds_eq (client : Rect) :
    explorerListBounds client = ⟨162, 74, if client.w - 174 < 40 then 40 else client.w - 174,
      if client.h - 102 < 40 then 40 else client.h - 102⟩ := by
  have hw : client.w - 162 - 12 = client.w - 174 := by omega
  have hh : client.h - 22 - 74 - 6 = client.h - 102 := by omega
  simp only [explorerListBounds, explorerSidebarW, explorerMenuH, explorerToolbarH, explorerAddrH, Int.reduceAdd,
    hw, hh]

theorem listIn_aligned {client : Rect} (hclient : ClientArea client)
    (hne : rectIntersect (listIn client) client ≠ ⟨0, 0, 0, 0⟩) :
    Aligned (listIn client) (rectIntersect (listIn client) client) := by
  obtain ⟨lowX, highX, lowY, highY, hlowX, hhighX, hlowY, hhighY, hgapX, hgapY, hcommon⟩ := intersect_sides hne
  have hlist : listIn client = ⟨int32 (client.x + 162), int32 (client.y + 74),
      if client.w - 174 < 40 then 40 else client.w - 174,
      if client.h - 102 < 40 then 40 else client.h - 102⟩ := by
    rw [listIn, explorerListBounds_eq]
  rw [hcommon]
  rw [hlist] at hlowX hhighX hlowY hhighY ⊢
  obtain ⟨hx, hw, hright, hcolumns⟩ := visible_side hclient.x hclient.w hclient.w_nonneg
    ⟨by omega, by omega, by omega⟩ (k := 76) (by omega) rfl rfl hlowX hhighX hgapX
  obtain ⟨hy, hh, hbottom, hrows⟩ := visible_side hclient.y hclient.h hclient.h_nonneg
    ⟨by omega, by omega, by omega⟩ (k := 64) (by omega) rfl rfl hlowY hhighY hgapY
  rw [hw, hh]
  refine ⟨hx, hy, hcolumns, hrows, ?_, ?_, Int.sub_pos.mpr hgapX, Int.sub_pos.mpr hgapY⟩
  · rw [Rect.right, show lowX + (highX - lowX) = highX by omega]
    exact hright
  · rw [Rect.bottom, show lowY + (highY - lowY) = highY by omega]
    exact hbottom

/-! ## What is drawn at a point -/

def explorerLattice (bounds : Rect) : Lattice where
  x := bounds.x
  y := bounds.y
  cellW := explorerGridCellW
  cellH := explorerGridCellH
  columns := explorerGridColumnsForWidth bounds.w
  cellW_pos := by decide
  cellH_pos := by decide
  columns_pos := wholeCells_pos

/-- The slot at a point, by whole columns. -/
def slotUnder (bounds : Rect) (x y : Int) : Int := (explorerLattice bounds).slotAt x y

/-- The slot at the point is one of the grid, and its cell does not wrap. -/
structure InGrid (bounds : Rect) (x y : Int) : Prop where
  holds : (explorerLattice bounds).Holds x y
  slot : slotUnder bounds x y < explorerGridVisibleCountForBounds bounds
  right : FitsInt ((explorerLattice bounds).cell (slotUnder bounds x y)).right
  bottom : FitsInt ((explorerLattice bounds).cell (slotUnder bounds x y)).bottom

variable {lv : Listview} {absBounds visible clip cell : Rect} {slot x y : Int}

theorem drawSlot_eq_some {g : GridItem} :
    drawSlot lv visible clip slot = some g ↔
      listed lv (int32 (lv.scrollOffset + slot)) ∧
        ¬ rectIsEmpty (rectIntersect (gridCell visible slot) clip) = true ∧
        g = ⟨int32 (lv.scrollOffset + slot), int32 (lv.scrollOffset + slot) == lv.selectedIndex,
          gridCell visible slot⟩ := by
  simp only [drawSlot]
  split
  · rename_i hlisted
    simp [hlisted]
  · rename_i hlisted
    rw [not_not] at hlisted
    split
    · rename_i hempty
      simp [hempty]
    · rename_i hempty
      simp [hlisted, hempty, eq_comm]

theorem mem_drawExplorerGrid {g : GridItem} :
    g ∈ drawExplorerGrid lv visible clip ↔
      ∃ slot, 0 ≤ slot ∧ slot < explorerGridVisibleCountForBounds visible ∧
        drawSlot lv visible clip slot = some g := by
  simp only [drawExplorerGrid, List.mem_filterMap, List.mem_range]
  constructor
  · rintro ⟨n, hn, hg⟩
    exact ⟨n, by omega, by omega, hg⟩
  · rintro ⟨slot, hslot, hlast, hg⟩
    refine ⟨slot.toNat, by omega, ?_⟩
    rw [Int.toNat_of_nonneg hslot]
    exact hg

theorem wholeCells_steps {k n len : Int} (hk : 0 < k) (hlen : 0 < len) (hn : 0 ≤ n ∧ n < wholeCells k len) :
    0 ≤ n * k ∧ n * k < len := by
  refine ⟨Int.mul_nonneg hn.1 (Int.le_of_lt hk), ?_⟩
  have hlast := hn.2
  simp only [wholeCells, Int.tdiv_eq_ediv_of_nonneg (Int.le_of_lt hlen)] at hlast
  split at hlast
  · have hzero : n = 0 := by omega
    rw [hzero, Int.zero_mul]
    exact hlen
  · have hsteps : (n + 1) * k ≤ len := (Int.le_ediv_iff_mul_le hk).mp (by omega)
    rw [Int.add_mul, Int.one_mul] at hsteps
    omega

theorem int32_le {n : Int} (h : 0 ≤ n) : int32 n ≤ n := by
  have hrange := int32_range n
  rw [FitsInt] at hrange
  by_cases hsmall : n < 2 ^ 31
  · exact Int.le_of_eq (int32_small (by omega))
  · omega

theorem gridCell_eq (h : Aligned absBounds visible) (hvisible : FitsInt visible.x ∧ FitsInt visible.y)
    (hslot : 0 ≤ slot ∧ slot < explorerGridVisibleCountForBounds visible) :
    gridCell visible slot = (explorerLattice absBounds).cell slot := by
  have hcolumns : 0 < explorerGridColumnsForWidth visible.w := wholeCells_pos
  have hrows : 0 < explorerGridRows visible.h := wholeCells_pos
  have hslots : slot < explorerGridRows visible.h * explorerGridColumnsForWidth visible.w := by
    have hle := int32_le (Int.mul_nonneg (Int.le_of_lt hcolumns) (Int.le_of_lt hrows))
    rw [Int.mul_comm]
    exact Int.lt_of_lt_of_le hslot.2 hle
  have hcolumn := wholeCells_steps (k := 76) (by omega) h.solid.1
    ⟨Int.emod_nonneg slot (Int.ne_of_gt hcolumns), Int.emod_lt_of_pos slot hcolumns⟩
  have hrow := wholeCells_steps (k := 64) (by omega) h.solid.2
    ⟨Int.ediv_nonneg hslot.1 (Int.le_of_lt hcolumns), Int.ediv_lt_of_lt_mul hcolumns hslots⟩
  obtain ⟨hx, hy⟩ := hvisible
  have hright := h.right
  have hbottom := h.bottom
  unfold FitsInt Rect.right Rect.bottom at *
  have hfitsX : int32 (visible.x + slot % explorerGridColumnsForWidth visible.w * 76) =
      visible.x + slot % explorerGridColumnsForWidth visible.w * 76 := int32_small (by omega)
  have hfitsY : int32 (visible.y + slot / explorerGridColumnsForWidth visible.w * 64) =
      visible.y + slot / explorerGridColumnsForWidth visible.w * 64 := int32_small (by omega)
  simp only [gridCell, Int.tmod_eq_emod_of_nonneg hslot.1, Int.tdiv_eq_ediv_of_nonneg hslot.1, explorerGridCellW,
    explorerGridCellH, hfitsX, hfitsY]
  rw [h.columns, h.x, h.y]
  rfl

theorem visibleCount_eq (h : Aligned absBounds visible) :
    explorerGridVisibleCountForBounds visible = explorerGridVisibleCountForBounds absBounds := by
  rw [explorerGridVisibleCountForBounds, explorerGridVisibleCountForBounds, h.columns, h.rows]

theorem end_fits {a w b v low high : Int} (ha : FitsInt a) (hw : FitsInt w) (hpos : 0 < w)
    (hlow : low = if a > b then a else b)
    (hhigh : high = if int32 (a + w) < int32 (b + v) then int32 (a + w) else int32 (b + v)) (hne : low < high) :
    FitsInt (a + w) := by
  have hend := int32_sum (n := a + w) (by rw [FitsInt] at *; omega) (by rw [FitsInt] at *; omega)
  rcases hend with ⟨hfits, _⟩ | ⟨_, hwraps⟩
  · exact hfits
  · rw [FitsInt] at ha hw
    rw [hlow, hhigh] at hne
    split at hne <;> split at hne <;> omega

theorem cell_shown (hcell : FitsRect cell) (hsolid : cell.Solid) (hclip : Unwrapped clip) (hpoint : clip.Has x y)
    (hhas : cell.Has x y) :
    ¬ rectIsEmpty (rectIntersect cell clip) = true ↔ FitsInt cell.right ∧ FitsInt cell.bottom := by
  constructor
  · intro hne
    obtain ⟨lowX, highX, lowY, highY, hlowX, hhighX, hlowY, hhighY, hgapX, hgapY, _⟩ :=
      intersect_sides (intersect_ne_zero hne)
    exact ⟨end_fits hcell.x hcell.w hsolid.1 hlowX hhighX hgapX,
      end_fits hcell.y hcell.h hsolid.2 hlowY hhighY hgapY⟩
  · rintro ⟨hright, hbottom⟩ hempty
    exact rectIntersect_empty ⟨hcell, hright, hbottom⟩ hclip hempty hhas hpoint

/-- Exactly one item can be drawn at a point, and its slot is the one under the point. -/
theorem drawn_iff (h : Aligned absBounds visible) (hvisible : FitsInt visible.x ∧ FitsInt visible.y)
    (hclip : Unwrapped clip) (hpoint : clip.Has x y) {i : Int} :
    (∃ g ∈ drawExplorerGrid lv visible clip, g.itemIndex = i ∧ g.cell.Has x y) ↔
      InGrid absBounds x y ∧ listed lv (int32 (lv.scrollOffset + slotUnder absBounds x y)) ∧
        i = int32 (lv.scrollOffset + slotUnder absBounds x y) := by
  have hcellFits : ∀ slot, 0 ≤ slot ∧ slot < explorerGridVisibleCountForBounds visible →
      FitsRect ((explorerLattice absBounds).cell slot) := by
    intro slot hslot
    have hw : FitsInt explorerGridCellW := by
      unfold FitsInt
      decide
    have hh : FitsInt explorerGridCellH := by
      unfold FitsInt
      decide
    rw [← gridCell_eq h hvisible hslot]
    exact ⟨int32_range _, int32_range _, hw, hh⟩
  have hcellSolid : ∀ slot, ((explorerLattice absBounds).cell slot).Solid := by
    intro slot
    exact ⟨(explorerLattice absBounds).cellW_pos, (explorerLattice absBounds).cellH_pos⟩
  constructor
  · rintro ⟨g, hg, rfl, hhas⟩
    obtain ⟨slot, hslot0, hslot, hdraw⟩ := mem_drawExplorerGrid.mp hg
    obtain ⟨hlisted, hshown, rfl⟩ := drawSlot_eq_some.mp hdraw
    rw [gridCell_eq h hvisible ⟨hslot0, hslot⟩] at hshown hhas
    obtain ⟨hright, hbottom⟩ :=
      (cell_shown (hcellFits slot ⟨hslot0, hslot⟩) (hcellSolid slot) hclip hpoint hhas).mp hshown
    obtain ⟨hholds, rfl⟩ := (Lattice.cell_has hslot0).mp hhas
    rw [visibleCount_eq h] at hslot
    exact ⟨⟨hholds, hslot, hright, hbottom⟩, hlisted, rfl⟩
  · rintro ⟨hgrid, hlisted, rfl⟩
    have hslot0 : 0 ≤ slotUnder absBounds x y := hgrid.holds.slotAt_nonneg
    have hslot : slotUnder absBounds x y < explorerGridVisibleCountForBounds visible := by
      rw [visibleCount_eq h]
      exact hgrid.slot
    have hhas := (Lattice.cell_has hslot0).mpr ⟨hgrid.holds, rfl⟩
    have hcell := gridCell_eq h hvisible ⟨hslot0, hslot⟩
    refine ⟨_, mem_drawExplorerGrid.mpr ⟨_, hslot0, hslot, drawSlot_eq_some.mpr ⟨hlisted, ?_, rfl⟩⟩, rfl, ?_⟩
    · rw [hcell]
      exact (cell_shown (hcellFits _ ⟨hslot0, hslot⟩) (hcellSolid _) hclip hpoint hhas).mpr
        ⟨hgrid.right, hgrid.bottom⟩
    · dsimp only
      rw [hcell]
      exact hhas

/-! ## What is hit at a point -/

theorem rectContains_side {a w p : Int} (ha : FitsInt a) (hw : FitsInt w) (hpos : 0 < w) (hle : a ≤ p)
    (hlt : p < int32 (a + w)) : int32 (p - a) = p - a := by
  have hend := int32_sum (n := a + w) (by rw [FitsInt] at *; omega) (by rw [FitsInt] at *; omega)
  rw [FitsInt] at ha hw
  exact int32_small (by omega)

theorem hitTestItem_eq (hfits : FitsRect absBounds) (hsolid : absBounds.Solid)
    (hin : rectContains absBounds x y = true) :
    hitTestItem lv absBounds x y =
      if listed lv (int32 (lv.scrollOffset + slotUnder absBounds x y)) then
        int32 (lv.scrollOffset + slotUnder absBounds x y)
      else -1 := by
  have hsides := hin
  simp only [rectContains, Bool.and_eq_true, decide_eq_true_eq] at hsides
  obtain ⟨⟨⟨hx, hy⟩, hx'⟩, hy'⟩ := hsides
  have hslot : lv.scrollOffset + (y - absBounds.y) / explorerGridCellH * explorerGridColumnsForWidth absBounds.w +
      (x - absBounds.x) / explorerGridCellW = lv.scrollOffset + slotUnder absBounds x y :=
    Int.add_assoc _ _ _
  simp only [hitTestItem, hin, Bool.not_true, Bool.false_eq_true, if_false,
    rectContains_side hfits.x hfits.w hsolid.1 hx hx', rectContains_side hfits.y hfits.h hsolid.2 hy hy',
    Int.tdiv_eq_ediv_of_nonneg (Int.sub_nonneg.mpr hx), Int.tdiv_eq_ediv_of_nonneg (Int.sub_nonneg.mpr hy), hslot]

/-! ## Hit and drawn -/

/-- The list of a window is where `explorer_relayout_window` puts it. -/
def LaidOut (wm : Manager) (explorer : ExplorerList) : Prop :=
  ∀ control w, listControl wm explorer = some control → controlWindow wm control = some w →
    FitsRect w.bounds ∧ control.bounds = explorerListBounds (windowClientRect w)

structure HitsDrawn (wm : Manager) (explorer : ExplorerList) (rect : Rect) (x y : Int) : Prop where
  hit : ∀ i, 0 ≤ i → (explorerHitTestItemIn wm explorer x y = i ↔
    ∃ g ∈ repaintGrid wm explorer rect, g.itemIndex = i ∧ g.cell.Has x y)
  miss : (∀ g ∈ repaintGrid wm explorer rect, ¬ g.cell.Has x y) → explorerHitTestItemIn wm explorer x y = -1

/-- Where an item lies, by its slot, the list has the point just if its cell is drawn. -/
def DrawnWhole (wm : Manager) (explorer : ExplorerList) (rect : Rect) (x y : Int) : Prop :=
  ∀ control, listControl wm explorer = some control →
    let absBounds := controlAbsBounds wm control
    listed explorer.listview (int32 (explorer.listview.scrollOffset + slotUnder absBounds x y)) →
      (rectContains absBounds x y = true ↔ repainted wm control rect = true ∧ InGrid absBounds x y)

variable {wm : Manager} {explorer : ExplorerList} {rect : Rect}

theorem listControl_eq_some :
    listControl wm explorer = some control ↔
      ∃ i, findControl wm explorer.listviewId = some i ∧ wm.controls[i]? = some control ∧
        control.type = .listview := by
  simp only [listControl, Option.bind_eq_bind]
  constructor
  · intro h
    split at h
    · cases h
    · obtain ⟨i, hi, h⟩ := Option.bind_eq_some_iff.mp h
      obtain ⟨c, hc, h⟩ := Option.bind_eq_some_iff.mp h
      split at h
      · rename_i htype
        rw [← Option.some.inj h]
        exact ⟨i, hi, hc, htype⟩
      · cases h
  · rintro ⟨i, hi, hc, htype⟩
    rw [if_neg (findControl_some hi).1, hi, Option.bind_some, hc, Option.bind_some, if_pos htype]

/-- A window that is laid out again is laid out. -/
theorem explorerRelayoutWindow_laidOut {windowId : Int} {j : Nat} {win : WmWindow}
    (hfind : findWindow wm windowId = some j) (hwin : wm.windows[j]? = some win) (hvisible : win.visible = true)
    (hfits : FitsRect win.window.bounds)
    (howner : ∀ control, listControl wm explorer = some control → control.windowId = windowId) :
    LaidOut (explorerRelayoutWindow wm explorer windowId).1 (explorerRelayoutWindow wm explorer windowId).2 := by
  have hrelaid : explorerRelayoutWindow wm explorer windowId = relayoutList wm explorer win := by
    simp [explorerRelayoutWindow, hfind, hwin, hvisible]
  have hid : ∀ wm', (explorerUpdateGridVisibleCount wm' explorer).listviewId = explorer.listviewId := by
    intro wm'
    unfold explorerUpdateGridVisibleCount
    split <;> rfl
  intro control w hcontrol hw
  rw [hrelaid] at hcontrol hw
  simp only [relayoutList] at hcontrol hw
  obtain ⟨i, hi, hc, htype⟩ := listControl_eq_some.mp hcontrol
  rw [hid] at hi
  cases hold : findControl wm explorer.listviewId with
  | none =>
    simp only [hold] at hi
    cases hi
  | some k =>
    simp only [hold] at hi hc hw
    rw [findControl_roster (congrArg Roster.controls (roster_modifyControl (by intro c; rfl) k)), hold] at hi
    cases hi
    simp only [Manager.modifyControl, List.getElem?_modify_eq, Option.map_eq_map, Option.map_eq_some_iff] at hc
    obtain ⟨c, hc, rfl⟩ := hc
    have howned := howner c (listControl_eq_some.mpr ⟨i, hold, hc, htype⟩)
    have hsame : controlWindow wm c = some w := hw
    simp only [controlWindow, howned, hfind, Option.bind_eq_bind, Option.bind_some, hwin] at hsame
    cases hsame
    exact ⟨hfits, rfl⟩

theorem rectIntersect_zero : rectIsEmpty (rectIntersect rect ⟨0, 0, 0, 0⟩) = true := by
  by_contra hne
  obtain ⟨lowX, highX, _, _, hlowX, hhighX, _, _, hgapX, _⟩ := intersect_sides (intersect_ne_zero hne)
  have hzero : int32 (0 + 0) = 0 := by decide
  rw [hlowX, hhighX] at hgapX
  dsimp only at hgapX
  rw [hzero] at hgapX
  split at hgapX <;> split at hgapX <;> omega

theorem controlAbsBounds_laidOut (hw : controlWindow wm control = some w)
    (hbounds : control.bounds = explorerListBounds (windowClientRect w)) :
    controlAbsBounds wm control = listIn (windowClientRect w) := by
  simp only [controlAbsBounds, hw, hbounds, listIn]

theorem controlVisibleBounds_listview (hw : controlWindow wm control = some w)
    (htype : control.type = .listview) :
    controlVisibleBounds wm control = rectIntersect (controlAbsBounds wm control) (windowClientRect w) := by
  simp [controlVisibleBounds, hw, controlRenderBounds, htype]

theorem listIn_fits {client : Rect} (hclient : ClientArea client) :
    FitsRect (listIn client) ∧ (listIn client).Solid := by
  have hw := hclient.w
  have hh := hclient.h
  unfold FitsInt at hw hh
  rw [listIn, explorerListBounds_eq]
  refine ⟨⟨int32_range _, int32_range _, ?_, ?_⟩, ?_, ?_⟩
  all_goals dsimp only
  · unfold FitsInt
    split <;> omega
  · unfold FitsInt
    split <;> omega
  · split <;> omega
  · split <;> omega

theorem hit_eq (hcontrol : listControl wm explorer = some control)
    (hlaid : LaidOut wm explorer) :
    explorerHitTestItemIn wm explorer x y =
      if rectContains (controlAbsBounds wm control) x y = true ∧ listed explorer.listview
          (int32 (explorer.listview.scrollOffset + slotUnder (controlAbsBounds wm control) x y)) then
        int32 (explorer.listview.scrollOffset + slotUnder (controlAbsBounds wm control) x y)
      else -1 := by
  simp only [explorerHitTestItemIn, hcontrol]
  by_cases hin : rectContains (controlAbsBounds wm control) x y = true
  · have hplace : FitsRect (controlAbsBounds wm control) ∧ (controlAbsBounds wm control).Solid := by
      cases hw : controlWindow wm control with
      | none =>
        have hzero : int32 (0 + 0) = 0 := by decide
        simp only [controlAbsBounds, hw, rectContains, hzero, Bool.and_eq_true, decide_eq_true_eq] at hin
        omega
      | some w =>
        obtain ⟨hfits, hbounds⟩ := hlaid control w hcontrol hw
        rw [controlAbsBounds_laidOut hw hbounds]
        exact listIn_fits (windowClientRect_area hfits)
    rw [hitTestItem_eq hplace.1 hplace.2 hin]
    simp only [hin, true_and]
  · simp [hitTestItem, hin]

/-- What is drawn at the point, for the control of the list. -/
theorem repainted_iff (hcontrol : listControl wm explorer = some control)
    (hlaid : LaidOut wm explorer) (hrect : Unwrapped rect) (hpoint : rect.Has x y) {i : Int} :
    (∃ g ∈ repaintGrid wm explorer rect, g.itemIndex = i ∧ g.cell.Has x y) ↔
      (repainted wm control rect = true ∧ InGrid (controlAbsBounds wm control) x y) ∧
        listed explorer.listview
          (int32 (explorer.listview.scrollOffset + slotUnder (controlAbsBounds wm control) x y)) ∧
        i = int32 (explorer.listview.scrollOffset + slotUnder (controlAbsBounds wm control) x y) := by
  simp only [repaintGrid, hcontrol]
  by_cases hshown : repainted wm control rect = true
  · have hmeets := hshown
    simp only [repainted, Bool.and_eq_true, Bool.not_eq_true'] at hmeets
    cases hw : controlWindow wm control with
    | none =>
      simp only [controlVisibleBounds, hw] at hmeets
      rw [rectIntersect_zero] at hmeets
      exact absurd hmeets.2 (by simp)
    | some w =>
      obtain ⟨hfits, hbounds⟩ := hlaid control w hcontrol hw
      have habs := controlAbsBounds_laidOut hw hbounds
      obtain ⟨_, _, _, htype⟩ := listControl_eq_some.mp hcontrol
      have hvisible := controlVisibleBounds_listview hw htype
      rw [habs] at hvisible
      have hne : rectIntersect (listIn (windowClientRect w)) (windowClientRect w) ≠ ⟨0, 0, 0, 0⟩ := by
        intro hzero
        rw [hvisible, hzero, rectIntersect_zero] at hmeets
        exact absurd hmeets.2 (by simp)
      have harea := windowClientRect_area hfits
      have haligned := listIn_aligned harea hne
      rw [← hvisible, ← habs] at haligned
      have hplace : FitsInt (controlVisibleBounds wm control).x ∧ FitsInt (controlVisibleBounds wm control).y := by
        rw [haligned.x, haligned.y, habs]
        exact ⟨int32_range _, int32_range _⟩
      rw [if_pos hshown, drawn_iff haligned hplace hrect hpoint]
      simp only [hshown, true_and]
  · simp [hshown]

theorem agree_iff {hit n : Int} {inside d item : Prop} [Decidable (inside ∧ item)] (hn : item → 0 ≤ n)
    (hhit : hit = if inside ∧ item then n else -1) :
    (∀ i, 0 ≤ i → (hit = i ↔ d ∧ item ∧ i = n)) ↔ (item → (inside ↔ d)) := by
  constructor
  · intro h hitem
    have hat := h n (hn hitem)
    constructor
    · intro hinside
      rw [if_pos ⟨hinside, hitem⟩] at hhit
      exact (hat.mp hhit).1
    · intro hdrawn
      by_contra hout
      rw [if_neg (fun hc => hout hc.1), hat.mpr ⟨hdrawn, hitem, rfl⟩] at hhit
      have hn0 := hn hitem
      omega
  · intro h i hi
    constructor
    · intro hiti
      by_cases hc : inside ∧ item
      · rw [if_pos hc] at hhit
        exact ⟨(h hc.2).mp hc.1, hc.2, by omega⟩
      · rw [if_neg hc] at hhit
        omega
    · rintro ⟨hdrawn, hitem, rfl⟩
      rw [hhit, if_pos ⟨(h hitem).mpr hdrawn, hitem⟩]

/-- A point hits what is drawn there just if no listed cell is hit and not drawn, or drawn and not hit. -/
theorem hitTest_iff (hlaid : LaidOut wm explorer) (hrect : Unwrapped rect) (hpoint : rect.Has x y) :
    HitsDrawn wm explorer rect x y ↔ DrawnWhole wm explorer rect x y := by
  cases hcontrol : listControl wm explorer with
  | none =>
    have hhit : explorerHitTestItemIn wm explorer x y = -1 := by
      simp only [explorerHitTestItemIn, hcontrol]
    have hdrawn : repaintGrid wm explorer rect = [] := by
      simp only [repaintGrid, hcontrol]
    refine ⟨fun _ control h => ?_, fun _ => ⟨fun i hi => ?_, fun _ => hhit⟩⟩
    · rw [hcontrol] at h
      cases h
    · rw [hhit, hdrawn]
      simp only [List.not_mem_nil, false_and, exists_false, iff_false]
      omega
  | some control =>
    have hhit := hit_eq (x := x) (y := y) hcontrol hlaid
    have hagree := agree_iff (d := repainted wm control rect = true ∧ InGrid (controlAbsBounds wm control) x y)
      (fun hitem => hitem.1) hhit
    have hdrawn := fun i => repainted_iff (i := i) hcontrol hlaid hrect hpoint
    constructor
    · intro h control' hcontrol'
      rw [hcontrol] at hcontrol'
      cases hcontrol'
      exact hagree.mp fun i hi => (h.hit i hi).trans (hdrawn i)
    · intro h
      have hall := hagree.mpr (h control hcontrol)
      refine ⟨fun i hi => (hall i hi).trans (hdrawn i).symm, fun hmiss => ?_⟩
      rw [hhit]
      split
      · rename_i hitem
        rw [if_pos hitem] at hhit
        have hdrawnItem := (hall _ hitem.2.1).mp hhit
        obtain ⟨g, hg, _, hhas⟩ := (hdrawn _).mpr hdrawnItem
        exact absurd hhas (hmiss g hg)
      · rfl

/-- A file window whose list is 238 pixels wide: three columns, and ten pixels. -/
def fileWindow : Window := (plainWindow ⟨100, 60, 420, 300⟩).window

def fileWindows : Manager :=
  (addListview { Manager.init with windows := [plainWindow fileWindow.bounds] } 1
    (explorerListBounds (windowClientRect fileWindow)) true).1

def fiveFiles : ExplorerList where
  listviewId := 1
  listview :=
    { items := List.replicate 5 ⟨"A.TXT".toUTF8.toList, false⟩
      itemCount := 5
      scrollOffset := 0
      selectedIndex := 0
      visibleCount := 6 }

theorem fileWindows_laidOut : LaidOut fileWindows fiveFiles := by
  intro control w hcontrol hw
  cases hcontrol
  cases hw
  exact ⟨⟨by unfold FitsInt; decide, by unfold FitsInt; decide, by unfold FitsInt; decide, by unfold FitsInt; decide⟩,
    by decide⟩

/-- The first file, where the whole screen is drawn. -/
theorem hitTest_first : HitsDrawn fileWindows fiveFiles ⟨0, 0, 640, 480⟩ 300 160 := by
  refine (hitTest_iff fileWindows_laidOut (Bounded.unwrapped (by decide)) (by decide)).mpr ?_
  intro control hcontrol
  cases hcontrol
  intro _ _
  refine iff_of_true (by decide) ⟨by decide, ⟨by decide, by decide, by decide⟩, by decide, ?_, ?_⟩
  · unfold FitsInt
    decide
  · unfold FitsInt
    decide

/-- Right of the last column the first file of the next row is hit, and nothing is drawn. -/
theorem strip_hits_next :
    LaidOut fileWindows fiveFiles ∧ ¬ HitsDrawn fileWindows fiveFiles ⟨490, 150, 20, 20⟩ 500 160 := by
  refine ⟨fileWindows_laidOut, fun h => ?_⟩
  have hmiss : ∀ g ∈ repaintGrid fileWindows fiveFiles ⟨490, 150, 20, 20⟩, ¬ g.cell.Has 500 160 := by decide
  exact absurd (h.miss hmiss) (by decide)

end Desk
end MiniDos
