import MiniDos.Input.Delivery
import Mathlib.Data.List.Chain

/-!
# MiniDos.Input.Repeats

What `keyboard_is_duplicate_make` takes for a duplicate, over streams of bytes.

* `codes`: the stream as makes and breaks of keys.
* With the second set a break takes the key out of `last_make_scancode`, so a stream in which a key
  is released before it is pressed again loses nothing.
* With the first set a break has another code than the make, and takes out nothing: a key that is
  pressed twice within two ticks gives its character once. `passedOn_iff`.
-/

namespace MiniDos
namespace Input

/-! ## The code -/

/-- The characters of the bytes, and whether each is a duplicate. -/
def Keyboard.scanAll : Keyboard → List (UInt8 × Timer) → List (UInt8 × Bool)
  | _, [] => []
  | k, (b, t) :: stream => (k.scan t b).2 :: (k.scan t b).1.scanAll stream

/-- The characters that are passed on: those that are no duplicates. -/
def Keyboard.passedOn (k : Keyboard) (stream : List (UInt8 × Timer)) : List UInt8 :=
  ((k.scanAll stream).filter (fun r => r.1 ≠ 0 ∧ r.2 = false)).map Prod.fst

/-! ## Makes and breaks -/

/-- A make or a break; `code`: without the bit of a break. -/
structure Code where
  code : UInt8
  extended : Bool
  release : Bool
  timer : Timer

/-- The stream without its prefixes, which are in `extended` and `released`. -/
def codes (set2 : Bool) : Bool → Bool → List (UInt8 × Timer) → List Code
  | _, _, [] => []
  | extended, released, (b, t) :: stream =>
    if b = 0xE0 then codes set2 true released stream
    else if set2 then
      if b = 0xF0 then codes set2 extended true stream
      else ⟨b, extended, released, t⟩ :: codes set2 false false stream
    else ⟨b &&& 0x7F, extended, decide (b &&& 0x80 ≠ 0), t⟩ :: codes set2 false released stream

def Code.SameKey (c c' : Code) : Prop := c.code = c'.code ∧ c.extended = c'.extended

/-- Between two makes of a key there is a break of it. -/
def Genuine (cs : List Code) : Prop :=
  ∀ pre c mid c' post, cs = pre ++ c :: (mid ++ c' :: post) → c.release = false →
    c'.release = false → c.SameKey c' → ∃ r ∈ mid, r.release = true ∧ r.SameKey c

/-- The key gives a character. -/
def Code.types (set2 : Bool) (c : Code) : Bool :=
  (processScancode set2 ⟨false, false, false, false, false, c.extended⟩ c.code).2 ≠ 0

/-- The tick that `last_make_tick` is set to. -/
def Code.tick (c : Code) : UInt32 := if c.timer.ready then c.timer.ticks else 0

/-- A second make of a key that gives a character, within two ticks. -/
def Code.Quick (p c : Code) : Prop :=
  p.SameKey c ∧ c.types false = true ∧ c.timer.ready = true ∧
    c.timer.ticks - p.tick ≤ keyboardDuplicateMakeTicks

def makes (cs : List Code) : List Code := cs.filter (fun c => !c.release)

/-! ## The characters -/

theorem scanAll_chars (k : Keyboard) (stream : List (UInt8 × Timer)) :
    ((k.scanAll stream).filter (fun r => r.1 ≠ 0)).map Prod.fst =
      (processAll k.set2 k.keys (stream.map Prod.fst)).2 := by
  induction stream generalizing k with
  | nil => rfl
  | cons b stream ih =>
    obtain ⟨b, t⟩ := b
    obtain ⟨hset, _, hkeys, hchar⟩ := scan_spec k t b
    have hrest := ih (k.scan t b).1
    rw [hset, hkeys] at hrest
    simp only [Keyboard.scanAll, List.map_cons, processAll, emit, ← hrest, ← hchar]
    by_cases h0 : (k.scan t b).2.1 = 0
    · simp [h0]
    · simp [h0]

theorem passedOn_eq_iff (k : Keyboard) (stream : List (UInt8 × Timer)) :
    k.passedOn stream = (processAll k.set2 k.keys (stream.map Prod.fst)).2 ↔
      ∀ r ∈ k.scanAll stream, r.1 ≠ 0 → r.2 = false := by
  rw [← scanAll_chars, Keyboard.passedOn]
  generalize k.scanAll stream = rs
  have hfilter : rs.filter (fun r => r.1 ≠ 0 ∧ r.2 = false) =
      (rs.filter (fun r => r.1 ≠ 0)).filter (fun r => r.2 = false) := by
    rw [List.filter_filter]
    congr 1
    funext r
    simp [and_comm]
  rw [hfilter]
  constructor
  · intro h r hr h0
    have hlen := congrArg List.length h
    rw [List.length_map, List.length_map] at hlen
    have hself := List.length_filter_eq_length_iff.mp hlen
    simpa using hself r (by simp [hr, h0])
  · intro h
    congr 1
    refine List.filter_eq_self.mpr fun r hr => ?_
    obtain ⟨hr, h0⟩ := List.mem_filter.mp hr
    simpa using h r hr (by simpa using h0)

/-! ## Which codes give characters -/

theorem table1_shift (b : UInt8) (shift : Bool) :
    scancodeSet1ToChar b shift = 0 ↔ scancodeSet1ToChar b false = 0 := by
  cases shift with
  | false => exact Iff.rfl
  | true =>
    have hsame : scancodeMapUpper.map (· == 0) = scancodeMapLower.map (· == 0) := by decide
    have hentry : (scancodeMapUpper[b.toNat]?).map (· == 0) = (scancodeMapLower[b.toNat]?).map (· == 0) := by
      rw [← List.getElem?_map, hsame, List.getElem?_map]
    show (scancodeMapUpper[b.toNat]?).getD 0 = 0 ↔ (scancodeMapLower[b.toNat]?).getD 0 = 0
    revert hentry
    cases scancodeMapUpper[b.toNat]? <;> cases scancodeMapLower[b.toNat]? <;> simp

theorem table2_shift (b : UInt8) (shift : Bool) :
    scancodeSet2ToChar b shift = 0 ↔ scancodeSet2ToChar b false = 0 := by
  have hentry : ∀ e ∈ scancodeSet2Map, e.2.1 ≠ 0 ∧ e.2.2 ≠ 0 := by
    have hall : scancodeSet2Map.all (fun e => decide (e.2.1 ≠ 0 ∧ e.2.2 ≠ 0)) = true := by decide
    exact fun e he => of_decide_eq_true (List.all_eq_true.mp hall e he)
  unfold scancodeSet2ToChar
  split
  case h_1 e he =>
    obtain ⟨h1, h2⟩ := hentry e (List.mem_of_find?_eq_some he)
    cases shift <;> simp [h1, h2]
  case h_2 => simp

theorem applyCaps_eq_zero (c : UInt8) (shift caps : Bool) : applyCaps c shift caps = 0 ↔ c = 0 := by
  have hlt := c.toNat_lt
  rw [← UInt8.toNat_inj, ← UInt8.toNat_inj]
  simp only [applyCaps, isLower, isUpper, decide_eq_true_eq, UInt8.le_iff_toNat_le,
    apply_ite UInt8.toNat, UInt8.toNat_add, UInt8.toNat_sub, UInt8.reduceToNat]
  split
  · split <;> omega
  · split
    · split <;> omega
    · exact Iff.rfl

theorem Keys.char_eq_zero (k : Keys) (c : UInt8) : k.char c = 0 ↔ c = 0 := by
  have hne : 0x80 ||| toLowerChar (applyCaps c k.shift k.caps) ≠ 0 := by
    intro h
    exact absurd (UInt8.or_eq_zero_iff.mp h).1 (by decide)
  unfold Keys.char
  dsimp only
  split
  case isTrue h =>
    have hc : c ≠ 0 := fun h0 => h.1 ((applyCaps_eq_zero c k.shift k.caps).mpr h0)
    simp [hne, hc]
  case isFalse => exact applyCaps_eq_zero c k.shift k.caps

theorem set1_char_eq_zero (k : Keys) (b : UInt8) : (processScancodeSet1 k b).2 = 0 ↔
    (processScancodeSet1 ⟨false, false, false, false, false, k.extended⟩ b).2 = 0 := by
  simp only [processScancodeSet1, apply_ite Prod.snd, apply_ite (fun c : UInt8 => c = 0),
    Keys.char_eq_zero, table1_shift b k.shift]

theorem set2_char_eq_zero {k : Keys} (hk : k.breakCode = false) (b : UInt8) :
    (processScancodeSet2 k b).2 = 0 ↔
      (processScancodeSet2 ⟨false, false, false, false, false, k.extended⟩ b).2 = 0 := by
  simp only [processScancodeSet2, hk, apply_ite Prod.snd, apply_ite (fun c : UInt8 => c = 0),
    Keys.char_eq_zero, table2_shift b k.shift, Bool.false_eq_true, if_false]

theorem set2_released_char {k : Keys} (hk : k.breakCode = true) (b : UInt8) :
    (processScancodeSet2 k b).2 = 0 := by
  simp only [processScancodeSet2, hk, apply_ite Prod.snd, if_true, ite_self]

theorem code_bits (b : UInt8) :
    (b &&& 0x80 = 0 → b &&& 0x7F = b) ∧ (b &&& 0x80 ≠ 0 → (b &&& 0x7F) ||| 0x80 = b) ∧
      (b &&& 0x7F) &&& 0x80 = 0 ∧ (b ||| 0x80) &&& 0x80 ≠ 0 := by
  have hall : ∀ n < 256, (UInt8.ofNat n &&& 0x80 = 0 → UInt8.ofNat n &&& 0x7F = UInt8.ofNat n) ∧
      (UInt8.ofNat n &&& 0x80 ≠ 0 → (UInt8.ofNat n &&& 0x7F) ||| 0x80 = UInt8.ofNat n) ∧
      (UInt8.ofNat n &&& 0x7F) &&& 0x80 = 0 ∧ (UInt8.ofNat n ||| 0x80) &&& 0x80 ≠ 0 := by
    decide +kernel
  have hb := hall b.toNat b.toNat_lt
  rwa [UInt8.ofNat_toNat] at hb

theorem set1_released_char (k : Keys) {b : UInt8} (hb : b &&& 0x80 ≠ 0) :
    (processScancodeSet1 k b).2 = 0 := by
  have hne : ∀ c : UInt8, c &&& 0x80 = 0 → b ≠ c := fun c hc h => hb (h ▸ hc)
  simp only [processScancodeSet1, apply_ite Prod.snd, hne 0x48 (by decide), hne 0x50 (by decide),
    hne 0x4B (by decide), hne 0x4D (by decide), hne 0x38 (by decide), hb, ne_eq, not_false_eq_true,
    if_false, if_true, ite_self]

/-! ## From bytes to codes -/

def Code.byte (set2 : Bool) (c : Code) : UInt8 :=
  if set2 then c.code else if c.release then c.code ||| 0x80 else c.code

/-- No code loses a character, from what is in `last_make_scancode` on. -/
def Passes (set2 : Bool) : LastMake → List Code → Prop
  | _, [] => True
  | m, c :: cs =>
    let d := isDuplicateMake c.timer m (c.byte set2) c.extended c.release
    (c.release = false → c.types set2 = true → d.2 = false) ∧ Passes set2 d.1 cs

/-- The prefixes that the decoder has seen. -/
def Keyboard.Pending (k : Keyboard) (extended released : Bool) : Prop :=
  k.keys.extended = extended ∧ (k.set2 = true → k.keys.breakCode = released)

theorem set1_pending (k : Keys) {b : UInt8} (h0 : b ≠ 0xE0) :
    (processScancodeSet1 k b).1.extended = false := by
  cases h : k.extended <;>
    simp [processScancodeSet1, h0, h, apply_ite Prod.fst, apply_ite Keys.extended]

theorem set2_pending (k : Keys) {b : UInt8} (h0 : b ≠ 0xE0) (hf : b ≠ 0xF0) :
    (processScancodeSet2 k b).1.extended = false ∧ (processScancodeSet2 k b).1.breakCode = false := by
  cases h : k.extended <;>
    simp [processScancodeSet2, h0, hf, h, apply_ite Prod.fst, apply_ite Keys.extended,
      apply_ite Keys.breakCode]

theorem scan_plain (k : Keyboard) (t : Timer) {b : UInt8}
    (hb : ¬ (b = 0xE0 ∨ (k.set2 = true ∧ b = 0xF0))) :
    let d := isDuplicateMake t k.lastMake b k.keys.extended
      (if k.set2 then k.keys.breakCode else decide (b &&& 0x80 ≠ 0))
    k.scan t b = ({ k with keys := (processScancode k.set2 k.keys b).1, lastMake := d.1 },
      (processScancode k.set2 k.keys b).2, d.2) :=
  if_neg hb

theorem byte_of_bits (b : UInt8) (extended : Bool) (t : Timer) :
    Code.byte false ⟨b &&& 0x7F, extended, decide (b &&& 0x80 ≠ 0), t⟩ = b := by
  obtain ⟨hclear, hset, _⟩ := code_bits b
  by_cases hbit : b &&& 0x80 = 0
  · simp [Code.byte, hbit, hclear]
  · simp [Code.byte, hbit, hset]

section Scan

variable {k : Keyboard} {extended released : Bool} (hk : k.Pending extended released) (t : Timer)
  (stream : List (UInt8 × Timer))
include hk

theorem scan_prefix {b : UInt8} (hb : b = 0xE0 ∨ (k.set2 = true ∧ b = 0xF0)) :
    ∃ extended' released', (k.scan t b).1.Pending extended' released' ∧
      (k.scan t b).1.lastMake = k.lastMake ∧ (k.scan t b).2 = (0, false) ∧
      codes k.set2 extended released ((b, t) :: stream) =
        codes k.set2 extended' released' stream := by
  obtain ⟨set2, keys, irqMode, lastIrqTick, irqSeen, lastMake, ring⟩ := k
  obtain ⟨rfl, hreleased⟩ := hk
  rcases hb with rfl | ⟨rfl, rfl⟩
  · refine ⟨true, released, ⟨?_, fun h => ?_⟩, rfl, ?_, rfl⟩
    · cases set2 <;> rfl
    · obtain rfl : set2 = true := h
      exact hreleased rfl
    · cases set2 <;> rfl
  · exact ⟨keys.extended, true, ⟨rfl, fun _ => rfl⟩, rfl, rfl, rfl⟩

/-- Any other byte is a make or a break. -/
theorem scan_code {b : UInt8} (hb : ¬ (b = 0xE0 ∨ (k.set2 = true ∧ b = 0xF0))) :
    ∃ c released', (k.scan t b).1.Pending false released' ∧
      (k.scan t b).1.lastMake =
        (isDuplicateMake c.timer k.lastMake (c.byte k.set2) c.extended c.release).1 ∧
      (k.scan t b).2.2 =
        (isDuplicateMake c.timer k.lastMake (c.byte k.set2) c.extended c.release).2 ∧
      ((k.scan t b).2.1 ≠ 0 ↔ c.release = false ∧ c.types k.set2 = true) ∧
      codes k.set2 extended released ((b, t) :: stream) =
        c :: codes k.set2 false released' stream := by
  obtain ⟨h0, hf⟩ := not_or.mp hb
  rw [scan_plain k t hb]
  obtain ⟨set2, keys, irqMode, lastIrqTick, irqSeen, lastMake, ring⟩ := k
  obtain ⟨rfl, hreleased⟩ := hk
  cases set2 with
  | true =>
    obtain rfl : keys.breakCode = released := hreleased rfl
    have hf' : b ≠ 0xF0 := fun h => hf ⟨rfl, h⟩
    have hpend := set2_pending keys h0 hf'
    refine ⟨⟨b, keys.extended, keys.breakCode, t⟩, false, ⟨hpend.1, fun _ => hpend.2⟩, rfl, rfl,
      ?_, by simp [codes, h0, hf']⟩
    show (processScancodeSet2 keys b).2 ≠ 0 ↔ _
    cases hbreak : keys.breakCode with
    | true => simp [set2_released_char hbreak]
    | false =>
      rw [ne_eq, set2_char_eq_zero hbreak]
      simp [Code.types, processScancode]
  | false =>
    refine ⟨⟨b &&& 0x7F, keys.extended, decide (b &&& 0x80 ≠ 0), t⟩, released,
      ⟨set1_pending keys h0, fun h => nomatch h⟩, ?_, ?_, ?_, by simp [codes, h0]⟩
    · rw [byte_of_bits]
      rfl
    · rw [byte_of_bits]
      rfl
    · show (processScancodeSet1 keys b).2 ≠ 0 ↔ _
      by_cases hbit : b &&& 0x80 = 0
      · rw [ne_eq, set1_char_eq_zero keys b]
        simp [Code.types, processScancode, hbit, (code_bits b).1 hbit]
      · simp [set1_released_char keys hbit, hbit]

end Scan

theorem scanAll_iff (stream : List (UInt8 × Timer)) : ∀ (k : Keyboard) (extended released : Bool),
    k.Pending extended released →
    ((∀ r ∈ k.scanAll stream, r.1 ≠ 0 → r.2 = false) ↔
      Passes k.set2 k.lastMake (codes k.set2 extended released stream)) := by
  induction stream with
  | nil =>
    intro k extended released _
    simp [Keyboard.scanAll, codes, Passes]
  | cons b stream ih =>
    obtain ⟨b, t⟩ := b
    intro k extended released hk
    have hset : (k.scan t b).1.set2 = k.set2 := (scan_spec k t b).1
    simp only [Keyboard.scanAll, List.forall_mem_cons]
    by_cases hb : b = 0xE0 ∨ (k.set2 = true ∧ b = 0xF0)
    · obtain ⟨extended', released', hpend, hlast, hchar, hcodes⟩ := scan_prefix hk t stream hb
      rw [hcodes, ih _ _ _ hpend, hset, hlast, hchar]
      simp
    · obtain ⟨c, released', hpend, hlast, hdup, hchar, hcodes⟩ := scan_code hk t stream hb
      rw [hcodes, ih _ _ _ hpend, hset, hlast, hdup, hchar, Passes, and_imp]

/-! ## The second set -/

/-- What is in `last_make_scancode` was made and not broken since. -/
def Held (m : LastMake) (done : List Code) : Prop :=
  m.valid = true → ∃ pre c mid, done = pre ++ c :: mid ∧ c.release = false ∧
    c.code = m.scancode ∧ c.extended = m.extended ∧ ∀ r ∈ mid, r.release = true → ¬ r.SameKey c

theorem Held.not_same {m : LastMake} {done rest : List Code} {c : Code} (h : Held m done)
    (hgen : Genuine (done ++ c :: rest)) (hc : c.release = false) :
    ¬ m.Same c.code c.extended := by
  rintro ⟨hvalid, hcode, hext⟩
  obtain ⟨pre, p, mid, rfl, hp, hpcode, hpext, hmid⟩ := h hvalid
  obtain ⟨r, hr, hrel, hsame⟩ := hgen pre p mid c rest (by simp) hp hc
    ⟨hpcode.trans hcode, hpext.trans hext⟩
  exact hmid r hr hrel hsame

theorem Held.broken {m : LastMake} {done : List Code} {c : Code} (h : Held m done)
    (hne : ¬ m.Same c.code c.extended) : Held m (done ++ [c]) := by
  intro hvalid
  obtain ⟨pre, p, mid, rfl, hp, hpcode, hpext, hmid⟩ := h hvalid
  refine ⟨pre, p, mid ++ [c], by simp, hp, hpcode, hpext, fun r hr hrel hsame => ?_⟩
  rcases List.mem_append.mp hr with hr | hr
  · exact hmid r hr hrel hsame
  · obtain rfl := List.mem_singleton.mp hr
    exact hne ⟨hvalid, (hsame.1.trans hpcode).symm, (hsame.2.trans hpext).symm⟩

theorem passes_of_genuine (cs : List Code) : ∀ (done : List Code) (m : LastMake),
    Genuine (done ++ cs) → Held m done → Passes true m cs := by
  induction cs with
  | nil => exact fun _ _ _ _ => trivial
  | cons c cs ih =>
    intro done m hgen hheld
    have hgen' : Genuine ((done ++ [c]) ++ cs) := by
      rw [List.append_assoc]
      exact hgen
    cases hrel : c.release with
    | true =>
      refine ⟨fun h => absurd (hrel.symm.trans h) (by decide), ih _ _ hgen' ?_⟩
      simp only [isDuplicateMake, hrel, if_true, Code.byte]
      split
      case isTrue => exact fun h => nomatch h
      case isFalse hne => exact hheld.broken hne
    | false =>
      have hne : ¬ m.Repeats c.timer c.code c.extended := fun h => hheld.not_same hgen hrel h.1
      simp only [Passes, isDuplicateMake, hrel, Code.byte, if_true, Bool.false_eq_true, if_false,
        if_neg hne]
      exact ⟨fun _ _ => trivial,
        ih _ _ hgen' fun _ => ⟨done, c, [], rfl, hrel, rfl, rfl, by simp⟩⟩

/-! ## The first set -/

/-- What is in `last_make_scancode` is the last make, and if that gives a character its tick is that
of this make. -/
def Last (m : LastMake) : Option Code → Prop
  | none => m.valid = false
  | some p => m.valid = true ∧ m.scancode = p.code ∧ m.extended = p.extended ∧
    p.code &&& 0x80 = 0 ∧ (p.types false = true → m.tick = p.tick)

theorem Last.not_same_break {m : LastMake} {last : Option Code} (h : Last m last) (code : UInt8)
    (extended : Bool) : ¬ m.Same (code ||| 0x80) extended := by
  rintro ⟨hvalid, hcode, _⟩
  have hset := (code_bits code).2.2.2
  rw [← hcode] at hset
  cases last with
  | none => exact absurd (hvalid.symm.trans h) (by decide)
  | some p => exact hset (by rw [h.2.1]; exact h.2.2.2.1)

theorem Code.SameKey.types {p c : Code} (h : p.SameKey c) : p.types false = c.types false := by
  simp only [Code.types, h.1, h.2]

theorem isChain_toList_cons {last : Option Code} {c : Code} {cs : List Code} :
    (last.toList ++ c :: cs).IsChain (fun p c => ¬ p.Quick c) ↔
      (∀ p, last = some p → ¬ p.Quick c) ∧
        ((some c).toList ++ cs).IsChain (fun p c => ¬ p.Quick c) := by
  cases last with
  | none => simp
  | some p => simp [List.isChain_cons_cons]

theorem Last.quick {m : LastMake} {last : Option Code} {c : Code} (h : Last m last)
    (hrep : m.Repeats c.timer c.code c.extended) (ht : c.types false = true) :
    ∃ p, last = some p ∧ p.Quick c := by
  obtain ⟨⟨hvalid, hcode, hext⟩, hready, hticks⟩ := hrep
  cases last with
  | none => exact absurd (hvalid.symm.trans h) (by decide)
  | some p =>
    obtain ⟨_, hpcode, hpext, _, htick⟩ := h
    have hsame : p.SameKey c := ⟨hpcode.symm.trans hcode, hpext.symm.trans hext⟩
    refine ⟨p, rfl, hsame, ht, hready, ?_⟩
    rw [← htick (hsame.types.trans ht)]
    exact hticks

theorem Last.repeats {m : LastMake} {p c : Code} (h : Last m (some p)) (hq : p.Quick c) :
    m.Repeats c.timer c.code c.extended := by
  obtain ⟨hvalid, hpcode, hpext, _, htick⟩ := h
  obtain ⟨hsame, ht, hready, hticks⟩ := hq
  refine ⟨⟨hvalid, hpcode.trans hsame.1, hpext.trans hsame.2⟩, hready, ?_⟩
  rw [htick (hsame.types.trans ht)]
  exact hticks

/-- The first set loses nothing exactly if no make comes again too soon. -/
theorem passes_iff_isChain {cs : List Code} (hcs : ∀ c ∈ cs, c.code &&& 0x80 = 0) :
    ∀ {m : LastMake} {last : Option Code}, Last m last → (Passes false m cs ↔
      (last.toList ++ makes cs).IsChain (fun p c => ¬ p.Quick c)) := by
  induction cs with
  | nil =>
    intro m last _
    cases last <;> simp [Passes, makes]
  | cons c cs ih =>
    intro m last hlast
    have hbit := hcs c (by simp)
    have hcs' : ∀ c ∈ cs, c.code &&& 0x80 = 0 := fun c hc => hcs c (by simp [hc])
    cases hrel : c.release with
    | true =>
      have hne := hlast.not_same_break c.code c.extended
      have hmakes : makes (c :: cs) = makes cs := by simp [makes, hrel]
      simp only [Passes, isDuplicateMake, hrel, Code.byte, if_true, Bool.false_eq_true, if_false,
        if_neg hne, hmakes, ih hcs' hlast]
      simp
    | false =>
      have hmakes : makes (c :: cs) = c :: makes cs := by simp [makes, hrel]
      simp only [Passes, isDuplicateMake, hrel, Code.byte, Bool.false_eq_true, if_false, hmakes]
      rw [isChain_toList_cons]
      by_cases hrep : m.Repeats c.timer c.code c.extended
      · rw [if_pos hrep]
        by_cases ht : c.types false = true
        · obtain ⟨p, hp, hquick⟩ := hlast.quick hrep ht
          constructor
          · exact fun h => absurd (h.1 trivial ht) (by simp)
          · exact fun h => absurd hquick (h.1 p hp)
        · -- the key gives no character: it stays the last one, with a tick of an earlier make
          have hlast' : Last m (some c) :=
            ⟨hrep.1.1, hrep.1.2.1, hrep.1.2.2, hbit, fun h => absurd h ht⟩
          rw [ih hcs' hlast']
          exact and_congr_left' ⟨fun _ p _ hq => ht hq.2.1, fun _ _ h => absurd h ht⟩
      · rw [if_neg hrep]
        have hlast' : Last ⟨c.code, c.extended, if c.timer.ready then c.timer.ticks else 0, true⟩
            (some c) := ⟨rfl, rfl, rfl, hbit, fun _ => rfl⟩
        rw [ih hcs' hlast']
        exact and_congr_left' ⟨fun _ p hp hq => hrep ((hp ▸ hlast : Last m (some p)).repeats hq),
          fun _ _ _ => rfl⟩

theorem codes_bits (stream : List (UInt8 × Timer)) : ∀ (extended released : Bool),
    ∀ c ∈ codes false extended released stream, c.code &&& 0x80 = 0 := by
  induction stream with
  | nil => simp [codes]
  | cons b stream ih =>
    obtain ⟨b, t⟩ := b
    intro extended released c hc
    simp only [codes, Bool.false_eq_true, if_false] at hc
    split at hc
    case isTrue => exact ih _ _ c hc
    case isFalse =>
      rcases List.mem_cons.mp hc with rfl | hc
      · exact (code_bits b).2.2.1
      · exact ih _ _ c hc

/-! ## Both -/

/-- In a stream where keys are released before they are pressed again, every character is passed on
exactly if the second set is used, or no key that gives one is pressed twice within two ticks with
no other key between. -/
theorem passedOn_iff (set2 : Bool) (stream : List (UInt8 × Timer))
    (hgen : Genuine (codes set2 false false stream)) :
    (Keyboard.init set2).passedOn stream = (processAll set2 Keys.init (stream.map Prod.fst)).2 ↔
      set2 = true ∨
        (makes (codes set2 false false stream)).IsChain (fun p c => ¬ p.Quick c) := by
  have hpend : (Keyboard.init set2).Pending false false := ⟨rfl, fun _ => rfl⟩
  have hpasses : (Keyboard.init set2).passedOn stream =
      (processAll set2 Keys.init (stream.map Prod.fst)).2 ↔
        Passes set2 ⟨0, false, 0, false⟩ (codes set2 false false stream) :=
    (passedOn_eq_iff (Keyboard.init set2) stream).trans (scanAll_iff stream _ _ _ hpend)
  rw [hpasses]
  cases set2 with
  | true =>
    have hheld : Held ⟨0, false, 0, false⟩ [] := fun h => nomatch h
    simp [passes_of_genuine _ [] _ hgen hheld]
  | false =>
    have hlast : Last ⟨0, false, 0, false⟩ none := rfl
    rw [passes_iff_isChain (codes_bits stream false false) hlast]
    simp

/-- The key A, pressed and released at tick 10, and again at another tick. -/
def twice (ticks : UInt32) : List (UInt8 × Timer) :=
  [(0x1E, ⟨true, 10⟩), (0x9E, ⟨true, 10⟩), (0x1E, ⟨true, ticks⟩), (0x9E, ⟨true, ticks⟩)]

theorem codes_twice (ticks : UInt32) : codes false false false (twice ticks) =
    [⟨0x1E, false, false, ⟨true, 10⟩⟩, ⟨0x1E, false, true, ⟨true, 10⟩⟩,
      ⟨0x1E, false, false, ⟨true, ticks⟩⟩, ⟨0x1E, false, true, ⟨true, ticks⟩⟩] := rfl

theorem genuine_of_alternating {cs : List Code} (hkey : ∀ c ∈ cs, ∀ c' ∈ cs, c.SameKey c')
    (halt : cs.IsChain (fun p c => p.release ≠ c.release)) : Genuine cs := by
  rintro pre c mid c' post rfl hc hc' _
  have hnext := halt.right_of_append
  cases mid with
  | nil => exact absurd (hc.trans hc'.symm) (List.isChain_cons_cons.mp hnext).1
  | cons r mid =>
    have hr := (List.isChain_cons_cons.mp hnext).1
    rw [hc] at hr
    exact ⟨r, List.mem_cons_self, by simpa using hr.symm, hkey r (by simp) c (by simp)⟩

theorem genuine_twice (ticks : UInt32) : Genuine (codes false false false (twice ticks)) := by
  rw [codes_twice]
  refine genuine_of_alternating (fun c hc c' hc' => ?_) (by simp)
  simp only [List.mem_cons, List.not_mem_nil, or_false] at hc hc'
  rcases hc with rfl | rfl | rfl | rfl <;> rcases hc' with rfl | rfl | rfl | rfl <;> exact ⟨rfl, rfl⟩

theorem passedOn_twice_slow :
    (Keyboard.init false).passedOn (twice 13) = [0x61, 0x61] := by
  have hslow : (makes (codes false false false (twice 13))).IsChain (fun p c => ¬ p.Quick c) := by
    rw [codes_twice]
    simp only [makes, List.filter_cons, Bool.not_false, Bool.not_true, Bool.false_eq_true, if_true,
      if_false, List.filter_nil, List.isChain_cons_cons, List.isChain_singleton, and_true]
    exact fun h => absurd h.2.2.2 (by decide)
  rw [(passedOn_iff false (twice 13) (genuine_twice 13)).mpr (.inr hslow)]
  decide

/-- Twice within a tick. -/
theorem passedOn_twice_quick : Genuine (codes false false false (twice 10)) ∧
    (Keyboard.init false).passedOn (twice 10) = [0x61] ∧
    (processAll false Keys.init ((twice 10).map Prod.fst)).2 = [0x61, 0x61] :=
  ⟨genuine_twice 10, by decide, by decide⟩

end Input
end MiniDos
