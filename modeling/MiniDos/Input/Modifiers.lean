import MiniDos.Input.Layout
import Mathlib.Data.List.Induction

/-!
# MiniDos.Input.Modifiers

The flags of the modifier keys against the keys that are held, over runs of presses and releases.

* The keys here are all that a keyboard has: beside those of `Key` any other one (`OtherKey`) and
  Pause, whose bytes for a press end with those of a release. Around a grey key a keyboard may put
  shifts that nobody pressed (`FakeShift`).
* There is one flag for the two keys of a kind, so the release of either clears it:
  `flags_right_iff`.
-/

namespace MiniDos
namespace Input

inductive Modifier where
  | shift
  | ctrl
  | alt
  deriving DecidableEq

def Modifier.key : Modifier → Bool → Key
  | .shift, right => .shift right
  | .ctrl, right => .ctrl right
  | .alt, right => .alt right

def Keys.flag (k : Keys) : Modifier → Bool
  | .shift => k.shift
  | .ctrl => k.ctrl
  | .alt => k.alt

/-! ## The rest of the keyboard -/

/-- The codes that a decoder takes for prefixes or for the keys of `Key` that it remembers. -/
def special1 (extended : Bool) : List UInt8 :=
  if extended then [0xE0, 0x1D, 0x9D, 0x38, 0xB8]
  else [0xE0, 0x2A, 0x36, 0xAA, 0xB6, 0x1D, 0x9D, 0x38, 0xB8, 0x3A]

def special2 (extended : Bool) : List UInt8 :=
  if extended then [0xE0, 0xF0, 0x11, 0x14]
  else [0xE0, 0xF0, 0x12, 0x59, 0x14, 0x11, 0x58]

/-- A key with codes of its own in both sets. -/
structure OtherKey where
  extended : Bool
  code1 : UInt8
  code2 : UInt8
  make1 : code1 ∉ special1 extended
  break1 : code1 ||| 0x80 ∉ special1 extended
  code2_plain : code2 ∉ special2 extended

inductive AnyKey where
  | key (k : Key)
  | other (o : OtherKey)
  | pause

/-- A shift that the keyboard adds to a grey key, as it comes with a prefix. -/
structure FakeShift where
  right : Bool
  release : Bool

inductive Stroke where
  | press (fakes : List FakeShift) (k : AnyKey)
  | release (k : AnyKey) (fakes : List FakeShift)

/-! ## Bytes -/

def FakeShift.bytes (set2 : Bool) (f : FakeShift) : List UInt8 :=
  if set2 then [0xE0] ++ (if f.release then [0xF0] else []) ++ [(Key.shift f.right).set2]
  else [0xE0, (Key.shift f.right).set1 ||| (if f.release then 0x80 else 0)]

def AnyKey.make (set2 ctrl : Bool) : AnyKey → List UInt8
  | .key k => if set2 then (Event.press k).set2 else (Event.press k).set1
  | .other o => (if o.extended then [0xE0] else []) ++ [if set2 then o.code2 else o.code1]
  | .pause =>
    if ctrl then (if set2 then [0xE0, 0x7E, 0xE0, 0xF0, 0x7E] else [0xE0, 0x46, 0xE0, 0xC6])
    else if set2 then [0xE1, 0x14, 0x77, 0xE1, 0xF0, 0x14, 0xF0, 0x77]
    else [0xE1, 0x1D, 0x45, 0xE1, 0x9D, 0xC5]

def AnyKey.released (set2 : Bool) : AnyKey → List UInt8
  | .key k => if set2 then (Event.release k).set2 else (Event.release k).set1
  | .other o => (if o.extended then [0xE0] else []) ++
    if set2 then [0xF0, o.code2] else [o.code1 ||| 0x80]
  | .pause => []

def Stroke.bytes (set2 ctrl : Bool) : Stroke → List UInt8
  | .press fakes k => fakes.flatMap (FakeShift.bytes set2) ++ k.make set2 ctrl
  | .release k fakes => k.released set2 ++ fakes.flatMap (FakeShift.bytes set2)

/-! ## Runs -/

/-- The statics of the decoder, and the keys that are held. -/
structure Typing where
  keys : Keys
  down : Key → Bool

def Typing.held (s : Typing) (m : Modifier) : Bool := s.down (m.key false) || s.down (m.key true)

def Stroke.hold (down : Key → Bool) : Stroke → Key → Bool
  | .press _ (.key k) => Function.update down k true
  | .release (.key k) _ => Function.update down k false
  | _ => down

def Typing.step (set2 : Bool) (s : Typing) (e : Stroke) : Typing where
  keys := (processAll set2 s.keys (e.bytes set2 (s.held .ctrl))).1
  down := e.hold s.down

/-- After `keyboard_init` or `keyboard_flush`; the second leaves `caps_lock` as it is. -/
def Typing.reset (caps : Bool) : Typing where
  keys := ⟨false, false, false, caps, false, false⟩
  down _ := false

def strike (set2 caps : Bool) (strokes : List Stroke) : Typing :=
  strokes.foldl (Typing.step set2) (.reset caps)

def Typing.Right (s : Typing) : Prop := ∀ m, s.keys.flag m = s.held m

/-! ## What the bytes do to the flags -/

section Bytes

variable {k : Keys} (hk : k.Ready)
include hk

theorem processAll_fake (set2 : Bool) (f : FakeShift) :
    (processAll set2 k (f.bytes set2)).1 = k := by
  obtain ⟨shift, ctrl, alt, caps, breakCode, extended⟩ := k
  obtain ⟨rfl, rfl⟩ := hk
  obtain ⟨right, release⟩ := f
  cases set2 <;> cases right <;> cases release <;> rfl

theorem processAll_fakes (set2 : Bool) (fakes : List FakeShift) :
    (processAll set2 k (fakes.flatMap (FakeShift.bytes set2))).1 = k := by
  induction fakes with
  | nil => rfl
  | cons f fakes ih =>
    rw [List.flatMap_cons, processAll_append, processAll_fake hk]
    exact ih

theorem processAll_other1 {extended : Bool} {c : UInt8} (hc : c ∉ special1 extended) :
    (processAll false k ((if extended then [0xE0] else []) ++ [c])).1 = k := by
  obtain ⟨shift, ctrl, alt, caps, breakCode, ext⟩ := k
  obtain ⟨rfl, rfl⟩ := hk
  cases extended <;>
    simp only [special1, if_true, if_false, Bool.false_eq_true, List.mem_cons, List.not_mem_nil,
      or_false, not_or] at hc <;>
    simp [processAll, processScancode, processScancodeSet1, hc, apply_ite Prod.fst]

theorem processAll_other2 {extended : Bool} {c : UInt8} (hc : c ∉ special2 extended)
    (released : Bool) :
    (processAll true k ((if extended then [0xE0] else []) ++
      ((if released then [0xF0] else []) ++ [c]))).1 = k := by
  obtain ⟨shift, ctrl, alt, caps, breakCode, ext⟩ := k
  obtain ⟨rfl, rfl⟩ := hk
  cases extended <;> cases released <;>
    simp only [special2, if_true, if_false, Bool.false_eq_true, List.mem_cons, List.not_mem_nil,
      or_false, not_or] at hc <;>
    simp [processAll, processScancode, processScancodeSet2, hc, apply_ite Prod.fst]

theorem processAll_otherMake (set2 ctrl : Bool) (o : OtherKey) :
    (processAll set2 k ((AnyKey.other o).make set2 ctrl)).1 = k := by
  cases set2 with
  | false => exact processAll_other1 hk o.make1
  | true => exact processAll_other2 hk o.code2_plain false

theorem processAll_otherReleased (set2 : Bool) (o : OtherKey) :
    (processAll set2 k ((AnyKey.other o).released set2)).1 = k := by
  cases set2 with
  | false => exact processAll_other1 hk o.break1
  | true => exact processAll_other2 hk o.code2_plain true

theorem processAll_pause (set2 ctrl : Bool) :
    (processAll set2 k (AnyKey.pause.make set2 ctrl)).1 = { k with ctrl := k.ctrl && ctrl } := by
  obtain ⟨shift, ctl, alt, caps, breakCode, ext⟩ := k
  obtain ⟨rfl, rfl⟩ := hk
  cases set2 <;> cases ctrl <;> cases ctl <;> rfl

theorem processAll_event (set2 : Bool) (e : Event) :
    (processAll set2 k (if set2 then e.set2 else e.set1)).1 = (e.apply k).1 := by
  cases set2 with
  | true => exact congrArg Prod.fst (set2_event hk e)
  | false =>
    by_cases he : e = .press .keypadEnter
    · subst he
      show (processAll false k (Event.press .keypadEnter).set1).1 = k
      rw [set1_keypadEnter hk]
    · exact congrArg Prod.fst (set1_event hk he)

end Bytes

/-! ## What an event does to the flags -/

def Key.kind : Key → Option Modifier
  | .shift _ => some .shift
  | .ctrl _ => some .ctrl
  | .alt _ => some .alt
  | _ => none

theorem kind_key (m : Modifier) (right : Bool) : (m.key right).kind = some m := by
  cases m <;> rfl

theorem Key.kind_eq_some_iff {key : Key} {m : Modifier} :
    key.kind = some m ↔ ∃ right, key = m.key right := by
  constructor
  · intro h
    cases key <;> cases h <;> exact ⟨_, rfl⟩
  · rintro ⟨right, rfl⟩
    exact kind_key m right

theorem key_ne (m : Modifier) (right : Bool) : m.key (!right) ≠ m.key right := by
  cases m <;> cases right <;> decide

theorem apply_press_flag (k : Keys) (key : Key) (m : Modifier) :
    ((Event.press key).apply k).1.flag m = (decide (key.kind = some m) || k.flag m) := by
  cases key <;> cases m <;> rfl

theorem apply_release_flag (k : Keys) (key : Key) (m : Modifier) :
    ((Event.release key).apply k).1.flag m = (!decide (key.kind = some m) && k.flag m) := by
  cases key <;> cases m <;> rfl

/-! ## What it does to the keys held -/

section Held

variable {down : Key → Bool} {key : Key} {m : Modifier}

theorem update_of_kind_ne (h : key.kind ≠ some m) (right b : Bool) :
    Function.update down key b (m.key right) = down (m.key right) :=
  Function.update_of_ne (fun he => h (Key.kind_eq_some_iff.mpr ⟨right, he.symm⟩)) _ _

theorem held_mk (k : Keys) (m : Modifier) :
    (Typing.mk k down).held m = (down (m.key false) || down (m.key true)) := rfl

theorem held_press (k : Keys) : (Typing.mk k (Function.update down key true)).held m =
    (decide (key.kind = some m) || (Typing.mk k down).held m) := by
  simp only [held_mk]
  by_cases h : key.kind = some m
  · obtain ⟨right, rfl⟩ := Key.kind_eq_some_iff.mp h
    cases right <;> simp [h]
  · rw [update_of_kind_ne h, update_of_kind_ne h]
    simp [h]

theorem held_release_self (k : Keys) (right : Bool) :
    (Typing.mk k (Function.update down (m.key right) false)).held m = down (m.key (!right)) := by
  have hne := Function.update_of_ne (key_ne m right) false down
  cases right with
  | false =>
    rw [Bool.not_false] at hne
    rw [held_mk, Function.update_self, hne, Bool.false_or, Bool.not_false]
  | true =>
    rw [Bool.not_true] at hne
    rw [held_mk, Function.update_self, hne, Bool.or_false, Bool.not_true]

theorem held_release_other (k : Keys) (h : key.kind ≠ some m) :
    (Typing.mk k (Function.update down key false)).held m = (Typing.mk k down).held m := by
  rw [held_mk, held_mk, update_of_kind_ne h, update_of_kind_ne h]

end Held

/-! ## One event -/

section Step

variable {set2 : Bool} {s : Typing}

theorem step_press (fakes : List FakeShift) (k : AnyKey) : s.step set2 (.press fakes k) =
    ⟨(processAll set2 s.keys (fakes.flatMap (FakeShift.bytes set2) ++ k.make set2 (s.held .ctrl))).1,
      (Stroke.press fakes k).hold s.down⟩ := rfl

theorem step_release (k : AnyKey) (fakes : List FakeShift) : s.step set2 (.release k fakes) =
    ⟨(processAll set2 s.keys (k.released set2 ++ fakes.flatMap (FakeShift.bytes set2))).1,
      (Stroke.release k fakes).hold s.down⟩ := rfl

theorem step_press_key (h : s.keys.Ready) (fakes : List FakeShift) (key : Key) :
    s.step set2 (.press fakes (.key key)) =
      ⟨((Event.press key).apply s.keys).1, Function.update s.down key true⟩ := by
  rw [step_press, processAll_append, processAll_fakes h, ← processAll_event h set2]
  rfl

theorem step_release_key (h : s.keys.Ready) (fakes : List FakeShift) (key : Key) :
    s.step set2 (.release (.key key) fakes) =
      ⟨((Event.release key).apply s.keys).1, Function.update s.down key false⟩ := by
  have hevent : (processAll set2 s.keys ((AnyKey.key key).released set2)).1 =
      ((Event.release key).apply s.keys).1 := processAll_event h set2 (.release key)
  rw [step_release, processAll_append, hevent, processAll_fakes (Event.apply_ready h _)]
  rfl

theorem step_other (h : s.keys.Ready) (e : Stroke) (o : OtherKey)
    (he : (∃ fakes, e = .press fakes (.other o)) ∨ ∃ fakes, e = .release (.other o) fakes) :
    s.step set2 e = s := by
  rcases he with ⟨fakes, rfl⟩ | ⟨fakes, rfl⟩
  · rw [step_press, processAll_append, processAll_fakes h, processAll_otherMake h]
    rfl
  · rw [step_release, processAll_append, processAll_otherReleased h, processAll_fakes h]
    rfl

theorem step_pause (h : s.keys.Ready) (fakes : List FakeShift) :
    s.step set2 (.press fakes .pause) =
      ⟨{ s.keys with ctrl := s.keys.ctrl && s.held .ctrl }, s.down⟩ := by
  rw [step_press, processAll_append, processAll_fakes h, processAll_pause h]
  rfl

theorem step_pause_released (h : s.keys.Ready) (fakes : List FakeShift) :
    s.step set2 (.release .pause fakes) = s := by
  rw [step_release]
  exact congrArg (Typing.mk · s.down) (processAll_fakes h set2 fakes)

theorem step_ready (h : s.keys.Ready) (e : Stroke) : (s.step set2 e).keys.Ready := by
  cases e with
  | press fakes k =>
    cases k with
    | key key => exact (step_press_key h fakes key).symm ▸ Event.apply_ready h _
    | other o => exact (step_other h _ o (.inl ⟨fakes, rfl⟩)).symm ▸ h
    | pause => exact (step_pause h fakes).symm ▸ h
  | release k fakes =>
    cases k with
    | key key => exact (step_release_key h fakes key).symm ▸ Event.apply_ready h _
    | other o => exact (step_other h _ o (.inr ⟨fakes, rfl⟩)).symm ▸ h
    | pause => exact (step_pause_released h fakes).symm ▸ h

/-- An event keeps the flags right, if it does not release one key of a kind while the other is
held. -/
theorem Typing.Right.step (h : s.Right) (hk : s.keys.Ready) (e : Stroke)
    (he : ∀ (m : Modifier) (right : Bool) (fakes : List FakeShift),
      e = .release (.key (m.key right)) fakes → s.down (m.key (!right)) = false) :
    (s.step set2 e).Right := by
  cases e with
  | press fakes k =>
    cases k with
    | key key =>
      rw [step_press_key hk]
      intro m
      rw [apply_press_flag, held_press, h m]
      rfl
    | other o => exact (step_other hk _ o (.inl ⟨fakes, rfl⟩)).symm ▸ h
    | pause =>
      -- the ctrl flag, which the bytes of Pause clear, is clear before them
      have hctrl : s.keys.ctrl = s.held .ctrl := h .ctrl
      rw [step_pause hk, ← hctrl, Bool.and_self]
      exact h
  | release k fakes =>
    cases k with
    | key key =>
      rw [step_release_key hk]
      intro m
      rw [apply_release_flag]
      by_cases hkind : key.kind = some m
      · obtain ⟨right, rfl⟩ := Key.kind_eq_some_iff.mp hkind
        rw [held_release_self, he m right fakes rfl]
        simp [hkind]
      · rw [held_release_other _ hkind, h m]
        simp [hkind, Typing.held]
    | other o => exact (step_other hk _ o (.inr ⟨fakes, rfl⟩)).symm ▸ h
    | pause => exact (step_pause_released hk fakes).symm ▸ h

theorem not_right_step (h : s.keys.Ready) {m : Modifier} {right : Bool}
    {fakes : List FakeShift} (hheld : s.down (m.key (!right)) = true) :
    ¬ (s.step set2 (.release (.key (m.key right)) fakes)).Right := by
  intro hright
  have hflag := hright m
  rw [step_release_key h, held_release_self, hheld, apply_release_flag, kind_key] at hflag
  simp at hflag

end Step

/-! ## Runs -/

theorem strike_concat (set2 caps : Bool) (strokes : List Stroke) (e : Stroke) :
    strike set2 caps (strokes ++ [e]) = (strike set2 caps strokes).step set2 e := by
  simp [strike]

theorem strike_ready (set2 caps : Bool) (strokes : List Stroke) :
    (strike set2 caps strokes).keys.Ready := by
  induction strokes using List.reverseRec with
  | nil => exact ⟨rfl, rfl⟩
  | append_singleton strokes e ih => exact strike_concat set2 caps strokes e ▸ step_ready ih e

/-- In a run the flags are right all along, exactly if no key of a kind is released while the other
is held. -/
theorem flags_right_iff (set2 caps : Bool) (strokes : List Stroke) :
    (∀ pre, pre <+: strokes → (strike set2 caps pre).Right) ↔
      ∀ (pre : List Stroke) (m : Modifier) (right : Bool) (fakes : List FakeShift),
        pre ++ [.release (.key (m.key right)) fakes] <+: strokes →
        (strike set2 caps pre).down (m.key (!right)) = false := by
  constructor
  · intro h pre m right fakes hpre
    have hright := h _ hpre
    rw [strike_concat] at hright
    exact Bool.eq_false_iff.mpr fun hheld =>
      not_right_step (strike_ready set2 caps pre) hheld hright
  · intro h pre hpre
    induction pre using List.reverseRec with
    | nil => exact fun m => by cases m <;> rfl
    | append_singleton pre e ih =>
      rw [strike_concat]
      refine (ih ((List.prefix_append _ _).trans hpre)).step (strike_ready set2 caps pre) e
        fun m right fakes he => ?_
      subst he
      exact h pre m right fakes hpre

/-- Both shift keys are pressed, and the left one is released. -/
def overlapping : List Stroke :=
  [.press [] (.key (.shift false)), .press [] (.key (.shift true)),
    .release (.key (.shift false)) []]

theorem overlapping_loses_shift :
    (strike false false overlapping).down (.shift true) = true ∧
    (strike false false overlapping).keys.shift = false ∧
    ¬ (strike false false overlapping).Right ∧ ¬ (strike true false overlapping).Right := by
  refine ⟨rfl, rfl, fun h => ?_, fun h => ?_⟩
  · have hshift : false = true := h .shift
    cases hshift
  · have hshift : false = true := h .shift
    cases hshift

end Input
end MiniDos
