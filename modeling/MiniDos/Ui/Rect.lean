import MiniDos.Video.Dirty

/-!
# MiniDos.Ui.Rect

The rectangles of the app runtime (`ui_rect.h`), and those of the parts of a widget (`ui_draw.h`).
Sums, products and quotients are those of a 32-bit `int`.
-/

namespace MiniDos
namespace Ui

open Video Plane

/-- A quotient of two `int`s; `none` is the divide error. -/
def div32 (a b : Int) : Option Int :=
  if b = 0 ∨ a = -2 ^ 31 ∧ b = -1 then none else some (a.tdiv b)

def rectIsEmpty (r : Rect) : Bool := r.w ≤ 0 || r.h ≤ 0

def rectContains (r : Rect) (px py : Int) : Bool :=
  r.x ≤ px && r.y ≤ py && px < int32 (r.x + r.w) && py < int32 (r.y + r.h)

def rectIntersect (a b : Rect) : Rect :=
  let x := if a.x > b.x then a.x else b.x
  let y := if a.y > b.y then a.y else b.y
  let x2 := if int32 (a.x + a.w) < int32 (b.x + b.w) then int32 (a.x + a.w) else int32 (b.x + b.w)
  let y2 := if int32 (a.y + a.h) < int32 (b.y + b.h) then int32 (a.y + a.h) else int32 (b.y + b.h)
  if x2 ≤ x ∨ y2 ≤ y then ⟨0, 0, 0, 0⟩ else ⟨x, y, int32 (x2 - x), int32 (y2 - y)⟩

def rectUnion (a b : Rect) : Rect :=
  if rectIsEmpty a then b
  else if rectIsEmpty b then a
  else
    let x := if a.x < b.x then a.x else b.x
    let y := if a.y < b.y then a.y else b.y
    let right :=
      if int32 (a.x + a.w) > int32 (b.x + b.w) then int32 (a.x + a.w) else int32 (b.x + b.w)
    let bottom :=
      if int32 (a.y + a.h) > int32 (b.y + b.h) then int32 (a.y + a.h) else int32 (b.y + b.h)
    ⟨x, y, int32 (right - x), int32 (bottom - y)⟩

/-! ## Parts of widgets -/

def menuItemH : Int := 18
def dropdownItemH : Int := 18
def scrollbarButtonH : Int := 16
def scrollbarMinThumbH : Int := 12

def dropdownPopupRect (r : Rect) (itemCount : Int) : Rect :=
  let popupH := int32 (itemCount * dropdownItemH)
  let popupH := if popupH < 0 then 0 else popupH
  ⟨r.x, int32 (r.y + r.h - 1), r.w, int32 (popupH + 2)⟩

def dropdownItemRect (r : Rect) (item : Int) : Rect :=
  ⟨int32 (r.x + 1), int32 (r.y + r.h + item * dropdownItemH), int32 (r.w - 2), dropdownItemH⟩

def menuItemRect (r : Rect) (item : Int) : Rect :=
  ⟨int32 (r.x + 1), int32 (r.y + 1 + item * menuItemH), int32 (r.w - 2), menuItemH⟩

def scrollbarDecrementRect (r : Rect) : Rect := ⟨r.x, r.y, r.w, scrollbarButtonH⟩

def scrollbarIncrementRect (r : Rect) : Rect :=
  ⟨r.x, int32 (r.y + r.h - scrollbarButtonH), r.w, scrollbarButtonH⟩

def scrollbarTrackRect (r : Rect) : Rect :=
  ⟨r.x, int32 (r.y + scrollbarButtonH), r.w, int32 (r.h - scrollbarButtonH * 2)⟩

/-- A value in its range; with an empty range it is the upper end. -/
def clamp (low high v : Int) : Int :=
  let v := if v < low then low else v
  if v > high then high else v

def scrollbarThumbRect (r : Rect) (minValue maxValue pageSize value : Int) : Option Rect := do
  let track := scrollbarTrackRect r
  if track.h ≤ 0 then return ⟨track.x, track.y, track.w, 0⟩
  let range := int32 (maxValue - minValue)
  let thumbH ←
    if 0 < pageSize then div32 (int32 (track.h * pageSize)) (int32 (range + pageSize))
    else some scrollbarMinThumbH
  let thumbH := if thumbH < scrollbarMinThumbH then scrollbarMinThumbH else thumbH
  let thumbH := if thumbH > track.h then track.h else thumbH
  let usableH := int32 (track.h - thumbH)
  let pos ←
    if 0 < usableH ∧ 0 < range then
      div32 (int32 (int32 (clamp minValue maxValue value - minValue) * usableH)) range
    else some 0
  return ⟨track.x, int32 (track.y + pos), track.w, thumbH⟩

end Ui
end MiniDos
