import MiniDos.Video.Gfx

/-!
# MiniDos.Ui.Batch

The queue of rectangles of the app runtime (`ui_batch.h`).

* `Painter`: an app that draws: its queue, and the screen.
* `Settled`: the invariant. Drawing what is queued, one rectangle after the other, leads to the
  target that single calls would have led to.
* `batch_draws_each`: any calls that end with a flush.
-/

namespace MiniDos
namespace Ui

open Video Plane
open Screen (ColorRect)

/-- `minidos_app_api_t`: where it is, and whether its entry for system calls is set. -/
structure Api where
  addr : Nat
  syscall : Bool
  deriving DecidableEq

/-- `g_ui_gfx_rect_batch`: the first `count` rectangles, and `api`. -/
structure Batch where
  rects : List ColorRect
  api : Option Api

structure Painter where
  batch : Batch
  screen : Screen

/-- `app_syscall`. -/
def appSyscall (api : Option Api) (call : Screen → Screen × Int) (s : Screen) : Screen × Int :=
  if api.any Api.syscall then call s else (s, -1)

section Queue

variable (background : Bool)

def appGfxRect (api : Option Api) (s : Screen) (r : ColorRect) : Screen × Int :=
  appSyscall api (fun s => gfxRect background s r) s

def appGfxRectBatch (api : Option Api) (s : Screen) (rects : List ColorRect) : Screen × Int :=
  appSyscall api (fun s => gfxRectBatch background s rects) s

/-- One turn of the loop behind a batch that was refused. -/
def flushOne (api : Option Api) (acc : Screen × Bool) (r : ColorRect) : Screen × Bool :=
  let done := appGfxRect background api acc.1 r
  (done.1, if done.2 ≤ 0 then false else acc.2)

/-- `ui_gfx_rect_batch_flush`. -/
def flush (u : Painter) (api : Option Api) : Painter × Bool :=
  if u.batch.rects = [] then (u, true)
  else
    let target := if u.batch.api.isSome then u.batch.api else api
    let done := appGfxRectBatch background target u.screen u.batch.rects
    if 0 < done.2 then (⟨⟨[], none⟩, done.1⟩, true)
    else
      let each := u.batch.rects.foldl (flushOne background target) (done.1, true)
      (⟨⟨[], none⟩, each.1⟩, each.2)

/-- `ui_gfx_rect_batch_enqueue`. -/
def enqueue (u : Painter) (api : Option Api) (r : ColorRect) : Painter × Bool :=
  if api = none then (u, false)
  else
    let u := if u.batch.rects ≠ [] ∧ u.batch.api ≠ api then (flush background u u.batch.api).1 else u
    let u := if u.batch.rects.length = appGfxRectBatchMax then (flush background u api).1 else u
    let u := { u with batch := ⟨u.batch.rects ++ [r], api⟩ }
    if u.batch.rects.length = appGfxRectBatchMax then flush background u api else (u, true)

/-- What an app does with its queue. -/
inductive Op where
  | enqueue (api : Option Api) (r : ColorRect)
  | flush (api : Option Api)

def Op.run (u : Painter) : Op → Painter
  | .enqueue api r => (Ui.enqueue background u api r).1
  | .flush api => (Ui.flush background u api).1

/-- The same with one call a rectangle, and no queue. -/
def Op.runDirect (s : Screen) : Op → Screen
  | .enqueue api r => (appGfxRect background api s r).1
  | .flush _ => s

/-! ## The invariant -/

variable {background} {m : Mode} {s t : Screen} {u : Painter}

def drawEach (background : Bool) (api : Option Api) (rects : List ColorRect) (s : Screen) : Screen :=
  rects.foldl (fun s r => (appGfxRect background api s r).1) s

/-- What is queued leads from `u` to the target of `t`. -/
structure Settled (background : Bool) (m : Mode) (u : Painter) (t : Screen) : Prop where
  room : u.batch.rects.length < appGfxRectBatchMax
  api : u.batch.rects ≠ [] → u.batch.api.isSome
  screen : Alike m u.screen u.screen
  alike : Alike m (drawEach background u.batch.api u.batch.rects u.screen) t

theorem Alike.appGfxRect (h : Alike m s t) (api : Option Api) (r : ColorRect) :
    Alike m (appGfxRect background api s r).1 (appGfxRect background api t r).1 := by
  unfold Ui.appGfxRect appSyscall
  split
  · exact h.rect background r
  · exact h

theorem Alike.drawEach (h : Alike m s t) (api : Option Api) (rects : List ColorRect) :
    Alike m (drawEach background api rects s) (drawEach background api rects t) :=
  List.foldl_rel (r := Alike m) h (fun r _ _ _ h => Alike.appGfxRect h api r)

theorem flushOne_screen (api : Option Api) (rects : List ColorRect) (acc : Screen × Bool) :
    (rects.foldl (flushOne background api) acc).1 = drawEach background api rects acc.1 := by
  induction rects generalizing acc with
  | nil => rfl
  | cons r rects ih => exact ih _

/-- A flush draws what was queued. -/
theorem flush_draws (u : Painter) (api : Option Api) (hs : Alike m u.screen u.screen)
    (hapi : u.batch.rects ≠ [] → u.batch.api.isSome) :
    Alike m (flush background u api).1.screen
        (drawEach background u.batch.api u.batch.rects u.screen) ∧
      (flush background u api).1.batch.rects = [] := by
  unfold flush
  split
  · rename_i hnil
    refine ⟨?_, hnil⟩
    rw [hnil]
    exact hs
  rename_i hne
  dsimp only
  rw [if_pos (hapi hne)]
  have hcall : ∀ acc, acc = (appGfxRectBatch background u.batch.api u.screen u.batch.rects) →
      (0 < acc.2 → Alike m acc.1 (drawEach background u.batch.api u.batch.rects u.screen)) ∧
        (¬ 0 < acc.2 → acc.1 = u.screen) := by
    rintro _ rfl
    unfold appGfxRectBatch drawEach appGfxRect appSyscall
    split
    · exact ⟨fun hok => hs.batch hok, fun hno => gfxRectBatch_refused hno⟩
    · exact ⟨fun hok => absurd hok (Int.not_lt.mpr (Int.le_of_lt (Int.negSucc_lt_zero 0))), fun _ => rfl⟩
  obtain ⟨hdone, hrefused⟩ := hcall _ rfl
  split
  · rename_i hok
    exact ⟨hdone hok, rfl⟩
  · rename_i hno
    refine ⟨?_, rfl⟩
    dsimp only
    rw [flushOne_screen, hrefused hno]
    exact Alike.drawEach hs _ _

theorem Settled.flush (h : Settled background m u t) (api : Option Api) :
    Settled background m (flush background u api).1 t := by
  obtain ⟨hdraw, hnil⟩ := @flush_draws background m u api h.screen h.api
  have hscreen := hdraw.trans h.alike
  refine ⟨by rw [hnil]; decide, fun hne => absurd hnil hne, hscreen.self, ?_⟩
  rw [hnil]
  exact hscreen

theorem Settled.push {r : ColorRect} {api : Option Api} (h : Settled background m u t)
    (hapi : api.isSome) (hsame : u.batch.rects = [] ∨ u.batch.api = api) :
    Alike m (drawEach background api (u.batch.rects ++ [r]) u.screen)
      (appGfxRect background api t r).1 := by
  have heq : drawEach background api u.batch.rects u.screen =
      drawEach background u.batch.api u.batch.rects u.screen := by
    rcases hsame with hnil | rfl
    · rw [hnil]
      rfl
    · rfl
  unfold drawEach
  rw [List.foldl_append]
  show Alike m (appGfxRect background api (drawEach background api u.batch.rects u.screen) r).1 _
  rw [heq]
  exact Alike.appGfxRect h.alike api r

theorem Settled.enqueue (h : Settled background m u t) (api : Option Api) (r : ColorRect) :
    Settled background m (enqueue background u api r).1 (appGfxRect background api t r).1 := by
  unfold Ui.enqueue
  split
  · rename_i hnull
    rw [hnull]
    exact h
  rename_i hapi
  have hsome : api.isSome := Option.isSome_iff_ne_none.mpr hapi
  -- A queue of another table is flushed.
  obtain ⟨v, hv, hsettled, hsame⟩ : ∃ v, v = (if u.batch.rects ≠ [] ∧ u.batch.api ≠ api then
      (Ui.flush background u u.batch.api).1 else u) ∧ Settled background m v t ∧
      (v.batch.rects = [] ∨ v.batch.api = api) := by
    refine ⟨_, rfl, ?_⟩
    split
    · exact ⟨h.flush _, .inl (flush_draws u _ h.screen h.api).2⟩
    · rename_i hno
      rw [not_and_or, not_not, not_not] at hno
      exact ⟨h, hno⟩
  rw [← hv]
  dsimp only
  rw [if_neg (Nat.ne_of_lt hsettled.room)]
  have hpush := hsettled.push (r := r) hsome hsame
  have hroom := hsettled.room
  split
  · obtain ⟨hdraw, hnil⟩ := @flush_draws background m
      ⟨⟨v.batch.rects ++ [r], api⟩, v.screen⟩ api hsettled.screen (fun _ => hsome)
    have hscreen := hdraw.trans hpush
    refine ⟨by rw [hnil]; decide, fun hne => absurd hnil hne, hscreen.self, ?_⟩
    rw [hnil]
    exact hscreen
  · rename_i hfree
    rw [List.length_append, List.length_singleton] at hfree
    refine ⟨?_, fun _ => hsome, hsettled.screen, hpush⟩
    rw [List.length_append, List.length_singleton]
    omega

/-! ## Runs -/

theorem Settled.step (h : Settled background m u t) (op : Op) :
    Settled background m (op.run background u) (op.runDirect background t) := by
  cases op with
  | enqueue api r => exact h.enqueue api r
  | flush api => exact h.flush api

end Queue

theorem settled_run (font : Font) (m : Mode) (hgraphics : m.Graphics)
    (back front : Int → Int → UInt32) (calls : List Call) (background : Bool) (ops : List Op) :
    let s := calls.foldl (Call.run font) (initVideo m back front)
    Settled background m (ops.foldl (Op.run background) ⟨⟨[], none⟩, s⟩)
      (ops.foldl (Op.runDirect background) s) := by
  intro s
  have hself : Alike m s s := alike_run font hgraphics back front calls
  exact List.foldl_rel (r := Settled background m)
    ⟨Nat.succ_pos 63, fun hne => absurd rfl hne, hself, hself⟩ (fun op _ _ _ h => h.step op)

/-- The drawing target after any calls that end with a flush is that of single calls in the same
order. -/
theorem batch_draws_each (font : Font) (m : Mode) (hgraphics : m.Graphics)
    (back front : Int → Int → UInt32) (calls : List Call) (background : Bool) (ops : List Op)
    (api : Option Api) :
    let s := calls.foldl (Call.run font) (initVideo m back front)
    ((ops ++ [Op.flush api]).foldl (Op.run background) ⟨⟨[], none⟩, s⟩).screen.target =
      (ops.foldl (Op.runDirect background) s).target := by
  intro s
  have hrun := settled_run font m hgraphics back front calls background ops
  rw [List.foldl_append]
  exact ((flush_draws _ api hrun.screen hrun.api).1.trans hrun.alike).target

/-- A batch with a rectangle that the kernel refuses, on a screen of 640 by 480 pixels. -/
theorem batch_draws_each_refused :
    ((([.enqueue (some ⟨1, true⟩) ⟨⟨0, 0, 8, 8⟩, 1⟩,
        .enqueue (some ⟨1, true⟩) ⟨⟨40000, 0, 8, 8⟩, 2⟩] : List Op) ++ [Op.flush none]).foldl
        (Op.run false) ⟨⟨[], none⟩, deferredFill⟩).screen.target =
      (([.enqueue (some ⟨1, true⟩) ⟨⟨0, 0, 8, 8⟩, 1⟩,
        .enqueue (some ⟨1, true⟩) ⟨⟨40000, 0, 8, 8⟩, 2⟩] : List Op).foldl
        (Op.runDirect false) deferredFill).target :=
  batch_draws_each (fun _ _ => 0) mode640 (by unfold Mode.Graphics mode640; decide) (fun _ _ => 0)
    (fun _ _ => 0) _ false _ none

end Ui
end MiniDos
