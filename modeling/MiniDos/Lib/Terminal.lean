import Mathlib.Data.Int.Notation
import Mathlib.Tactic.Tauto

/-!
# MiniDos.Lib.Terminal

A terminal of fixed size, and what a program has to do with an array of cells and two counters to be
one.

* `Terminal`: a grid and a cursor that cannot leave it. `Terminal.press`: what a key does.
* `Terminal.Held`: an array, indexed by row and column, and two integers hold a terminal. One lemma
  for each way in which a program changes them.
* `storeLine_eq`, `storeLines_eq`: loops that store into the cells of lines.
-/

namespace MiniDos

def storeCell {α : Type} (cells : Int → Int → α) (row col : Int) (a : α) : Int → Int → α :=
  fun r c => if r = row ∧ c = col then a else cells r c

theorem storeCell_self {α : Type} (cells : Int → Int → α) (row col : Int) :
    storeCell cells row col (cells row col) = cells := by
  funext r c
  unfold storeCell
  split
  · rename_i hcell
    rw [hcell.1, hcell.2]
  · rfl

structure Terminal (α : Type) (cols rows : Nat) where
  grid : Fin rows → Fin cols → α
  x : Fin cols
  y : Fin rows

namespace Terminal

inductive Key (α : Type) where
  | newline
  | carriageReturn
  | backspace
  | print (a : α)

variable {α : Type} {cols rows : Nat} (blank : α) (t : Terminal α cols rows)

/-- All lines move up by one; the last one is empty then. -/
def scroll : Terminal α cols rows :=
  { t with grid := fun y x => if h : y.val + 1 < rows then t.grid ⟨y.val + 1, h⟩ x else blank }

def carriageReturn : Terminal α cols rows := { t with x := ⟨0, t.x.pos⟩ }

def lineFeed : Terminal α cols rows :=
  if h : t.y.val + 1 < rows then { t with y := ⟨t.y.val + 1, h⟩ } else t.scroll blank

def newline : Terminal α cols rows := t.carriageReturn.lineFeed blank

def put (a : α) : Terminal α cols rows :=
  { t with grid := fun y x => if y = t.y ∧ x = t.x then a else t.grid y x }

/-- The cursor behind a cell that was written; behind the last one of a line the next line begins. -/
def advance : Terminal α cols rows :=
  if h : t.x.val + 1 < cols then { t with x := ⟨t.x.val + 1, h⟩ } else t.newline blank

/-- One cell back within the line, which is emptied. -/
def backspace : Terminal α cols rows :=
  if 0 < t.x.val then { t with x := ⟨t.x.val - 1, by omega⟩ }.put blank else t

def press : Key α → Terminal α cols rows
  | .newline => t.newline blank
  | .carriageReturn => t.carriageReturn
  | .backspace => t.backspace blank
  | .print a => (t.put a).advance blank

/-- Empty, with the cursor in the first cell. -/
def empty (hcols : 0 < cols) (hrows : 0 < rows) : Terminal α cols rows :=
  ⟨fun _ _ => blank, ⟨0, hcols⟩, ⟨0, hrows⟩⟩

def clear : Terminal α cols rows := empty blank t.x.pos t.y.pos

/-! ## Arrays and counters -/

/-- The array `cells` and the counters `x` and `y` hold the terminal. -/
structure Held (t : Terminal α cols rows) (cells : Int → Int → α) (x y : Int) : Prop where
  column : x = t.x.val
  row : y = t.y.val
  cells : ∀ (row : Fin rows) (col : Fin cols), cells row.val col.val = t.grid row col

variable {blank t} {cells : Int → Int → α} {x y : Int}

namespace Held

theorem column_mem (h : Held t cells x y) : 0 ≤ x ∧ x < cols := by
  have := t.x.isLt
  have := h.column
  omega

theorem row_mem (h : Held t cells x y) : 0 ≤ y ∧ y < rows := by
  have := t.y.isLt
  have := h.row
  omega

theorem carriageReturn (h : Held t cells x y) : Held t.carriageReturn cells 0 y :=
  ⟨rfl, h.row, h.cells⟩

theorem put (h : Held t cells x y) (a : α) :
    Held (t.put a) (storeCell cells y x a) x y := by
  refine ⟨h.column, h.row, fun row col => ?_⟩
  have hrow : (row.val : Int) = y ↔ row = t.y := by
    rw [h.row, Int.ofNat_inj, Fin.ext_iff]
  have hcol : (col.val : Int) = x ↔ col = t.x := by
    rw [h.column, Int.ofNat_inj, Fin.ext_iff]
  dsimp only [Terminal.put, storeCell]
  simp only [hrow, hcol, h.cells]

theorem lineFeed (h : Held t cells x y) (hroom : y + 1 < rows) :
    Held (t.lineFeed blank) cells x (y + 1) := by
  have hlt : t.y.val + 1 < rows := by
    have := h.row
    omega
  unfold Terminal.lineFeed
  rw [dif_pos hlt]
  exact ⟨h.column, congrArg (· + 1) h.row, h.cells⟩

theorem scroll (h : Held t cells x y) (hlast : ¬ y + 1 < rows) {moved : Int → Int → α}
    (hmoved : ∀ row col : Int, 0 ≤ row → row < rows → 0 ≤ col → col < cols →
      moved row col = if row + 1 < rows then cells (row + 1) col else blank) :
    Held (t.lineFeed blank) moved x (rows - 1) := by
  have hrow := h.row
  have hy := t.y.isLt
  unfold Terminal.lineFeed
  rw [dif_neg (by omega)]
  refine ⟨h.column, ?_, fun row col => ?_⟩
  · dsimp only [Terminal.scroll]
    omega
  · have hr := row.isLt
    have hc := col.isLt
    rw [hmoved row.val col.val (by omega) (by omega) (by omega) (by omega)]
    dsimp only [Terminal.scroll]
    by_cases hroom : row.val + 1 < rows
    · rw [dif_pos hroom, if_pos (by omega)]
      exact h.cells ⟨row.val + 1, hroom⟩ col
    · rw [dif_neg hroom, if_neg (by omega)]

theorem advance (h : Held t cells x y) (hroom : x + 1 < cols) :
    Held (t.advance blank) cells (x + 1) y := by
  have hlt : t.x.val + 1 < cols := by
    have := h.column
    omega
  unfold Terminal.advance
  rw [dif_pos hlt]
  exact ⟨congrArg (· + 1) h.column, h.row, h.cells⟩

theorem wrap (h : Held t cells x y) (hlast : ¬ x + 1 < cols) :
    t.advance blank = t.newline blank := by
  have hcol := h.column
  unfold Terminal.advance
  rw [dif_neg (by omega)]

theorem backspace (h : Held t cells x y) (hpos : 0 < x) :
    Held (t.backspace blank) (storeCell cells y (x - 1) blank) (x - 1) y := by
  have hcol := h.column
  have hlt : 0 < t.x.val := by omega
  have hback : Held { t with x := ⟨t.x.val - 1, by omega⟩ } cells (x - 1) y := by
    refine ⟨?_, h.row, h.cells⟩
    dsimp only
    omega
  unfold Terminal.backspace
  rw [if_pos hlt]
  exact hback.put blank

theorem backspace_first (h : Held t cells x y) (hfirst : ¬ 0 < x) : t.backspace blank = t := by
  have hcol := h.column
  unfold Terminal.backspace
  rw [if_neg (by omega)]

theorem empty (hcols : 0 < cols) (hrows : 0 < rows) {emptied : Int → Int → α}
    (hempty : ∀ row col : Int, 0 ≤ row → row < rows → 0 ≤ col → col < cols →
      emptied row col = blank) : Held (Terminal.empty blank hcols hrows) emptied 0 0 := by
  refine ⟨rfl, rfl, fun row col => hempty _ _ ?_ ?_ ?_ ?_⟩
  all_goals
    have := row.isLt
    have := col.isLt
    omega

end Held
end Terminal

/-! ## Loops over cells -/

section Loops

variable {α : Type} (cells : Int → Int → α)

theorem storeLine_eq {row : Int} (value : (Int → Int → α) → Int → α)
    (hvalue : ∀ b col a, value (storeCell b row col a) = value b) (n : Nat) :
    (List.range n).foldl (fun b (x : Nat) => storeCell b row x (value b x)) cells =
      fun (r c : Int) => if r = row ∧ 0 ≤ c ∧ c < n then value cells c else cells r c := by
  have hsame : ∀ n : Nat, value
      ((List.range n).foldl (fun b (x : Nat) => storeCell b row x (value b x)) cells) = value cells := by
    intro n
    induction n with
    | zero => rfl
    | succ n ih => rw [List.range_succ, List.foldl_append, List.foldl_cons, List.foldl_nil, hvalue, ih]
  induction n with
  | zero =>
    funext r c
    exact (if_neg (by omega)).symm
  | succ n ih =>
    rw [List.range_succ, List.foldl_append, List.foldl_cons, List.foldl_nil, hsame n, ih]
    funext r c
    unfold storeCell
    by_cases hc : r = row ∧ c = n
    · rw [if_pos hc, if_pos (by omega), hc.2]
    · rw [if_neg hc]
      dsimp only
      congr 1
      rw [eq_iff_iff]
      omega

/-- The first cells of the first lines; a value may be read from the lines below. -/
theorem storeLines_eq (value : (Int → Int → α) → Int → Int → α)
    (hvalue : ∀ b b' y, (∀ row col, y < row → b row col = b' row col) → value b y = value b' y)
    (rows cols : Nat) :
    (List.range rows).foldl (fun b (y : Nat) =>
        (List.range cols).foldl (fun b (x : Nat) => storeCell b y x (value b y x)) b) cells =
      fun (r c : Int) => if (0 ≤ r ∧ r < rows) ∧ 0 ≤ c ∧ c < cols then value cells r c else cells r c := by
  have hline : ∀ b (y : Nat), (List.range cols).foldl
      (fun b (x : Nat) => storeCell b y x (value b y x)) b =
      fun (r c : Int) => if r = y ∧ 0 ≤ c ∧ c < cols then value b y c else b r c := by
    intro b y
    refine storeLine_eq b (fun b => value b y) (fun b col a => ?_) cols
    exact hvalue _ _ _ (fun row c hrow => if_neg (by omega))
  induction rows with
  | zero =>
    funext r c
    exact (if_neg (by omega)).symm
  | succ n ih =>
    rw [List.range_succ, List.foldl_append, List.foldl_cons, List.foldl_nil, ih, hline]
    funext r c
    by_cases hr : r = n
    · have hbelow : value (fun (r c : Int) => if (0 ≤ r ∧ r < n) ∧ 0 ≤ c ∧ c < cols then value cells r c
          else cells r c) n = value cells n :=
        hvalue _ _ _ (fun row col hrow => if_neg (by omega))
      subst hr
      rw [hbelow]
      by_cases hc : 0 ≤ c ∧ c < cols
      · rw [if_pos ⟨rfl, hc⟩, if_pos (by omega)]
      · rw [if_neg (by tauto), if_neg (by tauto), if_neg (by tauto)]
    · rw [if_neg (by tauto)]
      congr 1
      rw [eq_iff_iff]
      omega

end Loops
end MiniDos
