import MiniDos.Lib.Caret
import MiniDos.Ui.Hold

/-!
# MiniDos.Ui.TextInput

Text inputs: their buffer holds a text with a caret in it.

* `TextHeld`: what the fields of the control and the bytes of its buffer have to do with the text.
* `textKey_held`: what a key does to them is what it does to the text, and no other byte is written.
-/

namespace MiniDos
namespace Ui

open Plane

/-! ## The loops -/

theorem shiftLeft_at (memory : Nat → UInt8) (addr n a : Nat) :
    shiftLeft memory addr n a = if addr ≤ a ∧ a < addr + n then memory (a + 1) else memory a := by
  induction n generalizing memory addr with
  | zero => rw [shiftLeft, if_neg (by omega)]
  | succ n ih =>
    rw [shiftLeft, ih]
    simp only [store]
    split_ifs <;> first | rfl | omega | (congr 1; omega)

theorem shiftRight_at (memory : Nat → UInt8) (addr n a : Nat) :
    shiftRight memory addr n a = if addr < a ∧ a ≤ addr + n then memory (a - 1) else memory a := by
  induction n generalizing memory with
  | zero => rw [shiftRight, if_neg (by omega)]
  | succ n ih =>
    rw [shiftRight, ih]
    simp only [store]
    split_ifs <;> first | rfl | omega | (congr 1; omega)

/-! ## The text -/

/-- A text input and its buffer of `cap` bytes at `addr`. -/
structure TextHeld (memory : Nat → UInt8) (addr : Nat) (cap : Int) (c : Control) (t : Caret UInt8) : Prop where
  type : c.type = .textinput
  enabled : c.enabled = true
  buffer : c.textBuffer = some addr
  bufferLen : c.textBufferLen = cap
  textLen : c.textLen = t.text.length
  caretPos : c.caretPos = t.pos
  room : (t.text.length : Int) < cap
  bytes (i : Nat) (h : i ≤ t.text.length) : memory (addr + i) = (t.text[i]?).getD 0
  nonzero : 0 ∉ t.text

def typed (cap : Int) (t : Caret UInt8) (key : UInt8) : Caret UInt8 :=
  if key = 0x15 then t.left
  else if key = 0x16 then t.right
  else if key = 8 then t.erase
  else if 32 ≤ key ∧ key ≤ 126 then t.insert (cap - 1).toNat key
  else t

/-- Bytes outside the buffer stay. -/
def Outside (addr : Nat) (cap : Int) (memory memory' : Nat → UInt8) : Prop :=
  ∀ a : Nat, a < addr ∨ (addr : Int) + cap ≤ a → memory' a = memory a

section Keys

variable {memory : Nat → UInt8} {addr : Nat} {cap : Int} {c : Control} {t : Caret UInt8}

theorem TextHeld.moved (h : TextHeld memory addr cap c t) {pos : Nat} (hpos : pos ≤ t.text.length) :
    TextHeld memory addr cap { c with caretPos := pos } ⟨t.text, pos, hpos⟩ :=
  ⟨h.type, h.enabled, h.buffer, h.bufferLen, h.textLen, rfl, h.room, h.bytes, h.nonzero⟩

theorem TextHeld.erased (h : TextHeld memory addr cap c t) (hpos : 0 < t.pos) :
    TextHeld (shiftLeft memory (addr + (t.pos - 1)) (t.text.length - t.pos + 1)) addr cap
      { c with textLen := c.textLen - 1, caretPos := c.caretPos - 1 } t.erase := by
  have hle := t.pos_le
  have hlength := t.length_erase hpos
  have hroom := h.room
  refine ⟨h.type, h.enabled, h.buffer, h.bufferLen, ?_, ?_, by omega, fun i hi => ?_, ?_⟩
  · simp only [h.textLen, hlength]
    omega
  · simp only [h.caretPos, t.pos_erase hpos]
    omega
  · rw [hlength] at hi
    rw [shiftLeft_at, t.getElem?_erase hpos]
    by_cases hbefore : i < t.pos - 1
    · rw [if_neg (by omega), if_pos hbefore, h.bytes i (by omega)]
    · rw [if_pos (by omega), if_neg hbefore, Nat.add_assoc, h.bytes (i + 1) (by omega)]
  · exact fun hzero => h.nonzero (t.mem_erase hzero)

theorem TextHeld.inserted (h : TextHeld memory addr cap c t) {key : UInt8} (hkey : key ≠ 0)
    (hroom : (t.text.length : Int) < cap - 1) :
    TextHeld (store (shiftRight memory (addr + t.pos) (t.text.length - t.pos + 1)) (addr + t.pos) key) addr cap
      { c with caretPos := c.caretPos + 1, textLen := c.textLen + 1 } (t.insert (cap - 1).toNat key) := by
  have hle := t.pos_le
  have hspace : t.text.length < (cap - 1).toNat := by omega
  have hlength := t.length_insert hspace key
  refine ⟨h.type, h.enabled, h.buffer, h.bufferLen, ?_, ?_, by omega, fun i hi => ?_, ?_⟩
  · simp only [h.textLen, hlength]
    rfl
  · simp only [h.caretPos, t.pos_insert hspace]
    rfl
  · rw [hlength] at hi
    rw [store, shiftRight_at, t.getElem?_insert hspace]
    by_cases hcaret : i = t.pos
    · rw [if_pos (by omega), if_neg (by omega), if_pos hcaret, Option.getD_some]
    · rw [if_neg (by omega), if_neg hcaret]
      by_cases hbefore : i < t.pos
      · rw [if_neg (by omega), if_pos hbefore, h.bytes i (by omega)]
      · rw [if_pos (by omega), if_neg hbefore, Nat.add_sub_assoc (by omega), h.bytes (i - 1) (by omega)]
  · intro hzero
    rcases t.mem_insert hzero with heq | hmem
    · exact hkey heq.symm
    · exact h.nonzero hmem

theorem TextHeld.left (h : TextHeld memory addr cap c t) (hstart : 0 < t.pos) :
    TextHeld memory addr cap { c with caretPos := c.caretPos - 1 } t.left := by
  have hmoved := h.moved (Nat.le_trans (Nat.sub_le t.pos 1) t.pos_le)
  rw [Int.ofNat_sub hstart, ← h.caretPos] at hmoved
  exact hmoved

theorem TextHeld.right (h : TextHeld memory addr cap c t) (hend : t.pos < t.text.length) :
    TextHeld memory addr cap { c with caretPos := c.caretPos + 1 } t.right := by
  have hcaret : c.caretPos + 1 = (t.pos + 1 : Nat) := by rw [h.caretPos, Int.natCast_add, Int.natCast_one]
  rw [Caret.right, dif_pos hend, hcaret]
  exact h.moved hend

/-- One key. -/
theorem textKey_held (h : TextHeld memory addr cap c t) (key : UInt8) :
    TextHeld (textKey memory addr c key).1 addr cap (textKey memory addr c key).2.1 (typed cap t key) ∧
      Outside addr cap memory (textKey memory addr c key).1 := by
  have hle := t.pos_le
  have hlen := h.textLen
  have hpos := h.caretPos
  have hroom := h.room
  have hcap := h.bufferLen
  subst hcap
  have hclamp : (if c.caretPos < 0 then 0 else if c.caretPos > c.textLen then c.textLen else c.caretPos) =
      c.caretPos := by
    rw [if_neg (by omega), if_neg (by omega)]
  have hsame : Outside addr c.textBufferLen memory memory := fun _ _ => rfl
  have herased : (c.caretPos - 1).toNat = t.pos - 1 := by omega
  have hcaret : c.caretPos.toNat = t.pos := by omega
  have hbehind : (c.textLen - c.caretPos + 1).toNat = t.text.length - t.pos + 1 := by omega
  simp only [textKey, hclamp, herased, hcaret, hbehind]
  rw [typed]
  split_ifs with hleft hstart hright hend hback hstart htyped hchar hchar
  · exact ⟨h.left (by omega), hsame⟩
  · rw [Caret.left_of_start (by omega)]
    exact ⟨h, hsame⟩
  · exact ⟨h.right (by omega), hsame⟩
  · rw [Caret.right_of_end (by omega)]
    exact ⟨h, hsame⟩
  · refine ⟨h.erased (by omega), fun a ha => ?_⟩
    exact (shiftLeft_at _ _ _ a).trans (if_neg (by omega))
  · rw [Caret.erase_of_start (by omega)]
    exact ⟨h, hsame⟩
  · have hkey : key ≠ 0 := by
      rintro rfl
      exact absurd hchar.1 (by decide)
    refine ⟨h.inserted hkey (hlen ▸ htyped.2.2), fun a ha => ?_⟩
    show (if a = addr + t.pos then key else shiftRight memory (addr + t.pos) _ a) = memory a
    rw [if_neg (by omega), shiftRight_at, if_neg (by omega)]
  · exact absurd ⟨htyped.1, htyped.2.1⟩ hchar
  · rw [Caret.insert_of_full (fun hroom => htyped ⟨hchar.1, hchar.2, by omega⟩)]
    exact ⟨h, hsame⟩
  · exact ⟨h, hsame⟩

end Keys

/-! ## The control that has the focus -/

def typeKeys (d : Desk) (keys : List UInt8) : Desk := keys.foldl (fun d key => (dispatchKey d key).1) d

/-- The control in entry `i` is a text input that holds `t`. -/
def HoldsText (d : Desk) (i : Nat) (addr : Nat) (cap : Int) (t : Caret UInt8) : Prop :=
  ∃ c, d.wm.controls[i]? = some c ∧ TextHeld d.memory addr cap c t

def keyEntry (wm : Manager) : Option Nat := findControl wm wm.focusedControlId

section Typing

variable {d : Desk} {i addr : Nat} {cap : Int} {t : Caret UInt8}

theorem keyOnControl_text {c : Control} (h : TextHeld d.memory addr cap c t) (key : UInt8) :
    keyOnControl d i c key = (⟨d.wm.modifyControl i (fun _ => (textKey d.memory addr c key).2.1),
      (textKey d.memory addr c key).1⟩, (textKey d.memory addr c key).2.2) := by
  have hroom := h.room
  have hcap := h.bufferLen
  simp only [keyOnControl, h.type, h.buffer]
  rw [if_neg (by omega)]

theorem keyEntry_dispatchKey (key : UInt8) : keyEntry (dispatchKey d key).1.wm = keyEntry d.wm := by
  have hroster := dispatchKey_roster (d := d) key
  have hfocus : (dispatchKey d key).1.wm.focusedControlId = d.wm.focusedControlId :=
    congrArg Roster.focusedControlId hroster
  rw [keyEntry, hfocus, findControl_roster (congrArg Roster.controls hroster), keyEntry]

theorem dispatchKey_typing (hkeys : keyEntry d.wm = some i) (h : HoldsText d i addr cap t) (key : UInt8) :
    HoldsText (dispatchKey d key).1 i addr cap (typed cap t key) ∧
      Outside addr cap d.memory (dispatchKey d key).1.memory := by
  obtain ⟨c, hc, hheld⟩ := h
  obtain ⟨hheld', houtside⟩ := textKey_held hheld key
  have hrun : dispatchKey d key = (⟨d.wm.modifyControl i (fun _ => (textKey d.memory addr c key).2.1),
      (textKey d.memory addr c key).1⟩, (textKey d.memory addr c key).2.2) := by
    rw [keyEntry] at hkeys
    simp only [dispatchKey, hkeys, hc]
    rw [if_pos hheld.enabled, keyOnControl_text hheld]
  rw [hrun]
  exact ⟨⟨_, by simp [Manager.modifyControl, hc], hheld'⟩, houtside⟩

theorem typeKeys_typing (hkeys : keyEntry d.wm = some i) (h : HoldsText d i addr cap t) (keys : List UInt8) :
    HoldsText (typeKeys d keys) i addr cap (keys.foldl (typed cap) t) ∧
      Outside addr cap d.memory (typeKeys d keys).memory := by
  induction keys generalizing d t with
  | nil => exact ⟨h, fun _ _ => rfl⟩
  | cons key keys ih =>
    obtain ⟨hnext, houtside⟩ := dispatchKey_typing hkeys h key
    obtain ⟨hlast, hrest⟩ := ih ((keyEntry_dispatchKey key).trans hkeys) hnext
    exact ⟨hlast, fun a ha => (hrest a ha).trans (houtside a ha)⟩

end Typing

/-! ## A text input that is new -/

/-- The bytes in front of the first NUL, `n` at most. -/
def textAt (memory : Nat → UInt8) (addr : Nat) : Nat → List UInt8
  | 0 => []
  | n + 1 => if memory addr = 0 then [] else memory addr :: textAt memory (addr + 1) n

section Added

variable {memory : Nat → UInt8} {addr n : Nat}

theorem length_textAt : (textAt memory addr n).length = textLength memory addr n := by
  induction n generalizing addr with
  | zero => rfl
  | succ n ih =>
    rw [textAt, textLength]
    split
    · rfl
    · rw [List.length_cons, ih]

theorem textAt_spec : (textAt memory addr n).length ≤ n ∧ 0 ∉ textAt memory addr n ∧
    ∀ i < (textAt memory addr n).length, (textAt memory addr n)[i]? = some (memory (addr + i)) := by
  induction n generalizing addr with
  | zero => exact ⟨Nat.le_refl 0, List.not_mem_nil, fun i hi => absurd hi (Nat.not_lt_zero i)⟩
  | succ n ih =>
    rw [textAt]
    split
    · exact ⟨Nat.zero_le _, List.not_mem_nil, fun i hi => absurd hi (Nat.not_lt_zero i)⟩
    · rename_i hbyte
      obtain ⟨hlength, hnul, hbytes⟩ := @ih (addr + 1)
      refine ⟨Nat.succ_le_succ hlength, ?_, fun i hi => ?_⟩
      · rw [List.mem_cons, not_or]
        exact ⟨fun h => hbyte h.symm, hnul⟩
      · cases i with
        | zero => rfl
        | succ i =>
          rw [List.getElem?_cons_succ, hbytes i (Nat.lt_of_succ_lt_succ hi), Nat.add_assoc,
            Nat.add_comm 1 i]

end Added

section Start

variable {d d₁ : Desk} {windowId id cap : Int} {bounds : Rect} {addr i : Nat}

theorem addTextinput_cases (h : addTextinput d windowId bounds (some addr) cap = (d₁, id)) (hid : id ≠ 0) :
    0 < cap ∧ id = d.wm.nextControlId ∧ d₁.memory = store d.memory (addr + textLength d.memory addr (cap - 1).toNat) 0 ∧
      ∃ slot c, freeSlot Control.id maxControls d.wm.controls = some slot ∧
        d₁.wm.controls = putSlot d.wm.controls slot c ∧ c.id = id ∧ c.type = .textinput ∧ c.enabled = true ∧
        c.textBuffer = some addr ∧ c.textBufferLen = cap ∧
        c.textLen = textLength d.memory addr (cap - 1).toNat ∧
        c.caretPos = textLength d.memory addr (cap - 1).toNat := by
  simp only [addTextinput] at h
  split at h
  · cases h
    exact absurd rfl hid
  rename_i hcap
  split at h
  · cases h
    exact absurd rfl hid
  rename_i wm n halloc
  cases h
  simp only [allocControl, Option.bind_eq_bind, Option.bind_eq_some_iff] at halloc
  obtain ⟨_, _, slot, hslot, halloc⟩ := halloc
  cases halloc
  exact ⟨Int.not_le.mp hcap, rfl, rfl, slot, _, hslot, rfl, rfl, rfl, rfl, rfl, rfl, rfl, rfl⟩

/-- The text that a buffer of `cap` bytes starts with. -/
def startText (memory : Nat → UInt8) (addr : Nat) (cap : Int) : Caret UInt8 :=
  .atEnd (textAt memory addr (cap - 1).toNat)

theorem textHeld_start {memory : Nat → UInt8} {c : Control} {n : Nat}
    (hn : n = textLength memory addr (cap - 1).toNat) (hcap : 0 < cap) (htype : c.type = .textinput)
    (henabled : c.enabled = true) (hbuffer : c.textBuffer = some addr) (hbufferLen : c.textBufferLen = cap)
    (hlen : c.textLen = n) (hcaret : c.caretPos = n) :
    TextHeld (store memory (addr + n) 0) addr cap c (startText memory addr cap) := by
  obtain ⟨hle, hnul, hbytes⟩ := @textAt_spec memory addr (cap - 1).toNat
  have hlength : (startText memory addr cap).text.length = n := length_textAt.trans hn.symm
  have hpos : (startText memory addr cap).pos = n := hlength
  have htext : (startText memory addr cap).text = textAt memory addr (cap - 1).toNat := rfl
  rw [← htext] at hle hnul hbytes
  refine ⟨htype, henabled, hbuffer, hbufferLen, by rw [hlen, hlength], by rw [hcaret, hpos], by omega,
    fun i hi => ?_, hnul⟩
  rw [hlength] at hi
  rw [store]
  by_cases hend : i = n
  · rw [if_pos (by omega), List.getElem?_eq_none (by omega)]
    rfl
  · rw [if_neg (by omega), hbytes i (by omega), Option.getD_some]

theorem findControl_only {wm : Manager} {c : Control} (hid : id ≠ 0) (hc : wm.controls[i]? = some c)
    (hcid : c.id = id) (honly : ∀ j b, wm.controls[j]? = some b → b.id = id → j = i) :
    findControl wm id = some i := by
  obtain ⟨hlt, hget⟩ := List.getElem?_eq_some_iff.mp hc
  rw [findControl, if_neg hid]
  refine List.findIdx?_eq_some_iff_getElem.mpr ⟨hlt, by simpa [hget] using hcid, fun j hj hat => ?_⟩
  have hsame := honly j _ (List.getElem?_eq_getElem (Nat.lt_trans hj hlt)) (by simpa using hat)
  exact absurd hsame (Nat.ne_of_lt hj)

theorem keyEntry_setFocusControl (wm : Manager) (id : Int) :
    keyEntry (setFocusControl wm id) = findControl wm id :=
  findControl_roster (by rw [roster_setFocusControl]) id

theorem addTextinput_holds (h : addTextinput d windowId bounds (some addr) cap = (d₁, id)) (hid : id ≠ 0) :
    Outside addr cap d.memory d₁.memory ∧
      ∃ i, HoldsText ⟨setFocusControl d₁.wm id, d₁.memory⟩ i addr cap (startText d.memory addr cap) ∧
        ((∀ c ∈ d.wm.controls, c.id ≠ id) → keyEntry (setFocusControl d₁.wm id) = some i) := by
  obtain ⟨hcap, -, hmemory, slot, c, hslot, hcontrols, hcid, htype, henabled, hbuffer, hbufferLen, hlen, hcaret⟩ :=
    addTextinput_cases h hid
  have hle : textLength d.memory addr (cap - 1).toNat ≤ (cap - 1).toNat :=
    length_textAt.symm.trans_le textAt_spec.1
  obtain ⟨hroom, -⟩ := freeSlot_some hslot
  have hentry : d₁.wm.controls[slot]? = some c := by
    rw [hcontrols, getElem?_putSlot hroom, if_pos rfl]
  refine ⟨fun a ha => ?_, slot, ⟨{ c with focused := c.id = id }, ?_, ?_⟩, fun hnew => ?_⟩
  · rw [hmemory, store, if_neg (by omega)]
  · simp [setFocusControl, hentry]
  · rw [hmemory]
    exact textHeld_start rfl hcap htype henabled hbuffer hbufferLen hlen hcaret
  · rw [keyEntry_setFocusControl]
    refine findControl_only hid hentry hcid (fun j b hb hbid => ?_)
    rw [hcontrols, getElem?_putSlot hroom] at hb
    split at hb
    · assumption
    · exact absurd hbid (hnew b (List.mem_of_getElem? hb))

end Start

/-! ## A text input -/

/-- The caret is in the text, and the text with its NUL is in the buffer. -/
def InBuffer (memory : Nat → UInt8) (addr : Nat) (c : Control) : Prop :=
  0 ≤ c.caretPos ∧ c.caretPos ≤ c.textLen ∧ c.textLen < c.textBufferLen ∧ memory (addr + c.textLen.toNat) = 0

theorem TextHeld.inBuffer {memory : Nat → UInt8} {addr : Nat} {cap : Int} {c : Control} {t : Caret UInt8}
    (h : TextHeld memory addr cap c t) : InBuffer memory addr c := by
  have hle := t.pos_le
  have hroom := h.room
  rw [InBuffer, h.caretPos, h.textLen, h.bufferLen]
  refine ⟨by omega, by omega, hroom, ?_⟩
  rw [Int.toNat_natCast, h.bytes _ (Nat.le_refl _), List.getElem?_eq_none (Nat.le_refl _)]
  rfl

/-- A text input starts as the text of its buffer with the caret behind it; and whenever it gets the
keys, they do to it and to its buffer what they do to the text that it holds. -/
theorem textinput_spec {d d₁ : Desk} {windowId id cap : Int} {bounds : Rect} {addr : Nat}
    (h : addTextinput d windowId bounds (some addr) cap = (d₁, id)) (hid : id ≠ 0) :
    Outside addr cap d.memory d₁.memory ∧ ∃ i,
      HoldsText ⟨setFocusControl d₁.wm id, d₁.memory⟩ i addr cap (startText d.memory addr cap) ∧
      ((∀ c ∈ d.wm.controls, c.id ≠ id) → keyEntry (setFocusControl d₁.wm id) = some i) ∧
      ∀ (e : Desk) (t : Caret UInt8) (keys : List UInt8), keyEntry e.wm = some i → HoldsText e i addr cap t →
        Outside addr cap e.memory (typeKeys e keys).memory ∧ ∃ c, (typeKeys e keys).wm.controls[i]? = some c ∧
          TextHeld (typeKeys e keys).memory addr cap c (keys.foldl (typed cap) t) ∧
          InBuffer (typeKeys e keys).memory addr c := by
  obtain ⟨houtside, i, hstart, hkeys⟩ := addTextinput_holds h hid
  refine ⟨houtside, i, hstart, hkeys, fun e t keys hentry hheld => ?_⟩
  obtain ⟨⟨c, hc, hlast⟩, hrest⟩ := typeKeys_typing hentry hheld keys
  exact ⟨hrest, c, hc, hlast, hlast.inBuffer⟩

/-- A window, and the text `AB`. -/
def written : Desk where
  wm := (createWindowEx Manager.init ⟨0, 0, 80, 40⟩ false false false).1
  memory := fun a => if a = 100 then 65 else if a = 101 then 66 else 0

theorem textinput_spec_written : ∃ (d₁ : Desk) (i : Nat), addTextinput written 1 ⟨4, 4, 60, 12⟩ (some 100) 4 = (d₁, 1) ∧
    ∃ c, (typeKeys ⟨setFocusControl d₁.wm 1, d₁.memory⟩ [0x15, 88, 89]).wm.controls[i]? = some c ∧
      TextHeld (typeKeys ⟨setFocusControl d₁.wm 1, d₁.memory⟩ [0x15, 88, 89]).memory 100 4 c
        ⟨[65, 88, 66], 2, by decide⟩ := by
  have hadd : addTextinput written 1 ⟨4, 4, 60, 12⟩ (some 100) 4 =
      ((addTextinput written 1 ⟨4, 4, 60, 12⟩ (some 100) 4).1, 1) := by rfl
  obtain ⟨-, i, hstart, hkeys, hrun⟩ := textinput_spec hadd (by decide)
  obtain ⟨-, c, hc, hheld, -⟩ := hrun _ _ [0x15, 88, 89] (hkeys (fun c hc => by cases hc)) hstart
  exact ⟨_, i, hadd, c, hc, hheld⟩

end Ui
end MiniDos
