import Mathlib.Data.List.TakeWhile
import MiniDos.Fat.Grammar
import MiniDos.Fat.ReadFound

/-!
# MiniDos.Fat.Listing

The entries of a directory by number, and the lookup of the names that this shows
(`fat16_get_entry_by_index` and `fat16_find_entry` of `fat16_dir_lookup.inc`).

* `matchName_shown`: which entries answer to the display name of an entry.
* `wp_getEntryByIndex`: number `i` is the visible entry `i` of the directory.
* `getEntryByIndex_lookup_iff`: when the display name leads back to the entry it was made from.
-/

namespace MiniDos
namespace Fat16

open BlockIO Chain

variable {ctx : Ctx Buffer Sector} {g : Globals} {m : DriverMem}
variable {ps : List Slot} {x : List Byte}

/-! ## Base and extension of an entry -/

theorem shown_length_le (x : List Byte) : (shown x).length ≤ x.length :=
  (List.takeWhile_prefix _).length_le

theorem shown_getD {i : Nat} (h : i < (shown x).length) :
    (shown x).getD i 0 = x.getD i 0 := by
  obtain ⟨more, hmore⟩ : shown x <+: x := List.takeWhile_prefix _
  conv_rhs => rw [← hmore]
  rw [List.getD_eq_getElem?_getD, List.getD_eq_getElem?_getD, List.getElem?_append_left h]

theorem ne_zero_of_mem_shown {c : Byte} (h : c ∈ shown x) : c ≠ 0 := by
  simpa using List.mem_takeWhile_imp h

theorem getD_shown_length (x : List Byte) : x.getD (shown x).length 0 = 0 := by
  induction x with
  | nil => rfl
  | cons c cs ih =>
    rw [shown, List.takeWhile_cons]
    by_cases hc : c = 0
    · simp [hc]
    · simpa [hc, shown] using ih

namespace DirectoryEntry

variable {e e' : DirectoryEntry}

def base (e : DirectoryEntry) : List Byte := (List.range (dirNameEnd e 8)).map e.nameAt

/-- The extension without the blanks behind it. -/
def ext (e : DirectoryEntry) : List Byte :=
  (List.range (extEnd e 3 - 8)).map (fun i => e.nameAt (8 + i))

/-- The three bytes of the extension field. -/
def extField (e : DirectoryEntry) : List Byte := (List.range 3).map (fun i => e.nameAt (8 + i))

/-- The extension as far as a C string shows it. -/
def shownExt (e : DirectoryEntry) : List Byte := shown e.ext

@[simp] theorem base_length (e : DirectoryEntry) : e.base.length = dirNameEnd e 8 := by simp [base]

@[simp] theorem ext_length (e : DirectoryEntry) : e.ext.length = extEnd e 3 - 8 := by simp [ext]

theorem base_length_le (e : DirectoryEntry) : e.base.length ≤ 8 := by
  rw [base_length]
  exact dirNameEnd_le e 8

theorem ext_length_le (e : DirectoryEntry) : e.ext.length ≤ 3 := by
  have := extEnd_le e 3
  rw [ext_length]
  omega

theorem base_getD {i : Nat} (h : i < e.base.length) (b : Byte) : e.base.getD i b = e.nameAt i := by
  rw [List.getD_eq_getElem?_getD, List.getElem?_eq_getElem h]
  simp [base]

theorem ext_getD {i : Nat} (h : i < e.ext.length) (b : Byte) : e.ext.getD i b = e.nameAt (8 + i) := by
  rw [List.getD_eq_getElem?_getD, List.getElem?_eq_getElem h]
  simp [ext]

theorem ext_eq_nil_iff : e.ext = [] ↔ blankFrom e 3 8 = true := by
  rw [← List.length_eq_zero_iff, ext_length]
  simp only [extEnd, blankFrom, Bool.and_eq_true, beq_iff_eq, Nat.reduceAdd]
  by_cases h2 : e.nameAt 10 = chSpace <;> by_cases h1 : e.nameAt 9 = chSpace <;>
    by_cases h0 : e.nameAt 8 = chSpace <;> simp [h0, h1, h2]

theorem extField_prefix_iff (hx : x.length ≤ 3) :
    x <+: e.extField ↔ ∀ i < x.length, e.nameAt (8 + i) = x.getD i 0 := by
  rw [List.prefix_iff_getElem?]
  refine forall_congr' (fun i => ⟨fun h hi => ?_, fun h hi => ?_⟩)
  · have := h hi
    rw [List.getD_eq_getElem?_getD, List.getElem?_eq_getElem hi]
    simp only [extField, List.getElem?_map, List.getElem?_range (show i < 3 by omega),
      Option.map_some, Option.some.injEq] at this
    exact this
  · have := h hi
    rw [List.getD_eq_getElem?_getD, List.getElem?_eq_getElem hi] at this
    simp only [extField, List.getElem?_map, List.getElem?_range (show i < 3 by omega),
      Option.map_some, Option.some.injEq]
    exact this

theorem base_eq_of_getD {b : List Byte} (hlen : b.length = e.base.length)
    (h : ∀ i < b.length, e.nameAt i = b.getD i 0) : b = e.base := by
  refine List.ext_getElem hlen (fun i hi hi' => ?_)
  have := h i hi
  rw [List.getD_eq_getElem?_getD, List.getElem?_eq_getElem hi] at this
  simpa [base] using this.symm

theorem buildDisplayName_eq_base (e : DirectoryEntry) :
    buildDisplayName e = e.base ++ (if e.ext = [] then [] else chDot :: e.ext) := by
  have hext : extEnd e 3 > 8 ↔ e.ext ≠ [] := by
    rw [ne_eq, ← List.length_eq_zero_iff, ext_length]
    omega
  unfold buildDisplayName
  by_cases h : e.ext = []
  · have : ¬ extEnd e 3 > 8 := fun hgt => hext.mp hgt h
    simp only [this, h, if_true, if_false]
    rfl
  · have : extEnd e 3 > 8 := hext.mpr h
    simp only [this, h, if_true, if_false]
    rfl

/-- The entry has a name that a lookup can spell: `.` or `..`, or a base name without dots and
NULs; without a base name there is an extension that makes no dot name of it. -/
def Named (e : DirectoryEntry) : Prop :=
  (e.ext = [] ∧ (e.base = [chDot] ∨ e.base = [chDot, chDot])) ∨
    (chDot ∉ e.base ∧ 0 ∉ e.base ∧
      (e.base ≠ [] ∨ (e.shownExt ≠ [] ∧ e.shownExt ≠ [chDot])))

/-- Entry `e'` answers to the display name of `e`: the base names are the same, and the extension
of `e'` goes on from that of `e`; an entry without extension takes that of `e'` into account only
when the base name leaves room for it to see. -/
def Answers (e' e : DirectoryEntry) : Prop :=
  e'.base = e.base ∧
    (if e.ext = [] then e.base.length = 8 ∨ e'.ext = [] else e.shownExt <+: e'.extField)

theorem Answers.refl (e : DirectoryEntry) : e.Answers e := by
  refine ⟨rfl, ?_⟩
  split
  · exact .inr ‹_›
  · have hle := shown_length_le e.ext
    have := e.ext_length_le
    refine (extField_prefix_iff (by unfold shownExt; omega)).mpr (fun i hi => ?_)
    rw [shownExt, shown_getD hi, ext_getD (Nat.lt_of_lt_of_le hi hle)]

end DirectoryEntry
/-! ## The lookup of a display name -/

section Match

variable {s : CStr} {e : DirectoryEntry}

theorem matchBase_some : ∀ n j {L : Nat}, matchBase s e n j = some L →
    j ≤ L ∧ ∀ i, j ≤ i → i < L → s.at i ≠ chDot ∧ s.at i ≠ 0 := by
  intro n
  induction n with
  | zero =>
    intro j L h
    simp only [matchBase, Option.some.injEq] at h
    exact ⟨by omega, fun i hi hL => by omega⟩
  | succ n ih =>
    intro j L h
    rw [matchBase] at h
    by_cases hstop : s.at j = chDot ∨ s.at j = 0
    · rw [if_pos hstop, Option.some.injEq] at h
      exact ⟨by omega, fun i hi hL => by omega⟩
    · rw [if_neg hstop] at h
      by_cases hsame : e.nameAt j = s.at j
      · rw [if_neg (fun hne => hne hsame)] at h
        obtain ⟨hle, hin⟩ := ih (j + 1) h
        refine ⟨by omega, fun i hi hL => ?_⟩
        rcases Nat.eq_or_lt_of_le hi with rfl | hlt
        · exact ⟨fun hd => hstop (.inl hd), fun hz => hstop (.inr hz)⟩
        · exact hin i hlt hL
      · rw [if_pos hsame] at h
        cases h

/-- What answers to a name with base `b` and, behind a dot, extension `x`. -/
theorem matchName_shown {b x : List Byte} (hnd : isDotName s = false)
    (hs : s = b ++ (if x = [] then [] else chDot :: x)) (hbl : b.length ≤ 8) (hxl : x.length ≤ 3)
    (hdot : chDot ∉ b) (hzero : (0 : Byte) ∉ b) : matchName s e = true ↔
      e.base = b ∧ (if x = [] then b.length = 8 ∨ e.ext = [] else
        shown x <+: e.extField) := by
  have hin : ∀ i < b.length, s.at i = b.getD i 0 := by
    intro i hi
    rw [hs]
    exact CStr.at_append_left _ hi
  have hchars : ∀ i < b.length, s.at i ≠ chDot ∧ s.at i ≠ 0 := by
    intro i hi
    have hmem := getD_mem hi (0 : Byte)
    rw [hin i hi]
    exact ⟨fun h => hdot (h ▸ hmem), fun h => hzero (h ▸ hmem)⟩
  have hbases : (b.length = dirNameEnd e 8 ∧ ∀ i < b.length, 0 ≤ i → e.nameAt i = s.at i) ↔
      e.base = b := by
    constructor
    · rintro ⟨hlen, h⟩
      refine (DirectoryEntry.base_eq_of_getD (by simpa using hlen) (fun i hi => ?_)).symm
      exact (h i hi (Nat.zero_le i)).trans (hin i hi)
    · rintro rfl
      refine ⟨e.base_length, fun i hi _ => ?_⟩
      rw [hin i hi, DirectoryEntry.base_getD hi]
  rw [matchName_plain hnd]
  by_cases hx : x = []
  · -- no dot: the extension counts only when the base name is short
    subst hx
    rw [if_pos rfl, List.append_nil] at hs
    subst hs
    have hz : CStr.at s s.length = 0 := CStr.at_length s
    rw [if_pos rfl, matchBase_value hbl hchars (.inr hz) 8 0 (Nat.zero_le _) rfl]
    by_cases hall : ∀ i < s.length, 0 ≤ i → e.nameAt i = s.at i
    · rw [if_pos hall]
      by_cases hlen : List.length s = dirNameEnd e 8
      · have hb : e.base = s := hbases.mp ⟨hlen, hall⟩
        simp only [Option.elim, hz, ← hlen, hb, true_and, beq_self_eq_true, Bool.and_true, ne_eq,
          not_true_eq_false, if_false, DirectoryEntry.ext_eq_nil_iff, show (0 : Byte) ≠ chDot by decide]
        by_cases hshort : List.length s < 8
        · rw [if_pos hshort]
          exact ⟨.inr, fun h => h.resolve_left (by omega)⟩
        · rw [if_neg hshort]
          exact iff_of_true rfl (.inl (by omega))
      · simp only [Option.elim, hlen, ne_eq, not_false_eq_true, if_true, Bool.false_eq_true, false_iff]
        exact fun h => hlen (hbases.mpr h.1).1
    · rw [if_neg hall]
      refine iff_of_false (by simp) (fun h => hall (hbases.mpr h.1).2)
  · rw [if_neg hx] at hs ⊢
    have hmid : s.at b.length = chDot := by
      have := CStr.at_append_right b (chDot :: x) 0
      rw [Nat.add_zero] at this
      rw [hs]
      exact this
    have hext : ∀ i, s.at (b.length + 1 + i) = x.getD i 0 := by
      intro i
      have := CStr.at_append_right b (chDot :: x) (1 + i)
      rw [← Nat.add_assoc] at this
      rw [hs, this, Nat.add_comm 1 i]
      rfl
    rw [matchBase_value hbl hchars (.inl hmid) 8 0 (Nat.zero_le _) rfl]
    by_cases hall : ∀ i < b.length, 0 ≤ i → e.nameAt i = s.at i
    · rw [if_pos hall]
      by_cases hlen : b.length = dirNameEnd e 8
      · have hb : e.base = b := hbases.mp ⟨hlen, hall⟩
        have hxs : (shown x).length ≤ 3 := Nat.le_trans (shown_length_le x) hxl
        have hend : s.at (b.length + 1 + (shown x).length) = 0 := by
          rw [hext, getD_shown_length]
        have hpre : (∀ i < (shown x).length, 0 ≤ i →
            e.nameAt (8 + i) = s.at (b.length + 1 + i)) ↔ shown x <+: e.extField := by
          rw [DirectoryEntry.extField_prefix_iff hxs]
          refine forall_congr' (fun i => forall_congr' (fun hi => ?_))
          rw [hext, shown_getD hi]
          exact ⟨fun h => h (Nat.zero_le i), fun h _ => h⟩
        have hvalue := @matchExt_value s e (shown x) hxs (b.length + 1)
          (fun i hi => by
            rw [hext, ← shown_getD hi]
            exact ne_zero_of_mem_shown (getD_mem hi 0))
          hend 3 0 (Nat.zero_le _) rfl
        rw [Nat.add_zero] at hvalue
        simp only [Option.elim, ← hlen, ne_eq, not_true_eq_false, if_false, hmid, if_true, hvalue,
          hb, true_and]
        by_cases hp : shown x <+: e.extField
        · rw [if_pos (hpre.mpr hp)]
          simp [hend, hp]
        · rw [if_neg (fun h => hp (hpre.mp h))]
          simp [hp]
      · simp only [Option.elim, hlen, ne_eq, not_false_eq_true, if_true, Bool.false_eq_true, false_iff]
        exact fun h => hlen (hbases.mpr h.1).1
    · rw [if_neg hall]
      refine iff_of_false (by simp) (fun h => hall (hbases.mpr h.1).2)

theorem blankFrom_iff_forall : ∀ n i, blankFrom e n i = true ↔
    ∀ j, i ≤ j → j < i + n → e.nameAt j = chSpace := by
  intro n
  induction n with
  | zero => intro i; exact iff_of_true rfl (fun j h1 h2 => by omega)
  | succ n ih =>
    intro i
    simp only [blankFrom, Bool.and_eq_true, beq_iff_eq, ih (i + 1)]
    constructor
    · rintro ⟨h0, h⟩ j h1 h2
      rcases Nat.eq_or_lt_of_le h1 with rfl | hlt
      · exact h0
      · exact h j hlt (by omega)
    · exact fun h => ⟨h i (Nat.le_refl i) (by omega), fun j h1 h2 => h j (by omega) (by omega)⟩

theorem nameAt_eq_name (e : DirectoryEntry) (i : Fin 11) : e.nameAt i.val = e.name i := by
  unfold DirectoryEntry.nameAt
  rw [dif_pos i.isLt]

theorem base_ext_of_name {b x : List Byte} (he : e.name = padName b x) (hbl : b.length ≤ 8)
    (hxl : x.length ≤ 3) (hb : ∀ c ∈ b, c ≠ chSpace) (hx : ∀ c ∈ x, c ≠ chSpace) :
    e.base = b ∧ e.ext = x := by
  unfold DirectoryEntry.base DirectoryEntry.ext
  rw [dirNameEnd_eq he hbl hb 8 hbl (Nat.le_refl 8), extEnd_eq he hxl hx 3 hxl (Nat.le_refl 3),
    Nat.add_sub_cancel_left]
  exact ⟨map_range_getD b _ (fun i hi => nameAt_base he (by omega)),
    map_range_getD x _ (fun i hi => nameAt_ext he (by omega))⟩

theorem blank_behind_base : ∀ n {i : Nat}, dirNameEnd e n ≤ i → i < n → e.nameAt i = chSpace := by
  intro n
  induction n with
  | zero => intro i _ h; omega
  | succ n ih =>
    intro i hle hlt
    rw [dirNameEnd] at hle
    by_cases hn : e.nameAt n = chSpace
    · rw [if_pos hn] at hle
      rcases Nat.eq_or_lt_of_le (Nat.le_of_lt_succ hlt) with rfl | hlt
      · exact hn
      · exact ih hle hlt
    · rw [if_neg hn] at hle
      omega

theorem blank_behind_ext : ∀ n {i : Nat}, extEnd e n ≤ 8 + i → i < n →
    e.nameAt (8 + i) = chSpace := by
  intro n
  induction n with
  | zero => intro i _ h; omega
  | succ n ih =>
    intro i hle hlt
    rw [extEnd] at hle
    by_cases hn : e.nameAt (8 + n) = chSpace
    · rw [if_pos hn] at hle
      rcases Nat.eq_or_lt_of_le (Nat.le_of_lt_succ hlt) with rfl | hlt
      · exact hn
      · exact ih hle hlt
    · rw [if_neg hn] at hle
      omega

theorem name_eq_padName (e : DirectoryEntry) : e.name = padName e.base e.ext := by
  funext i
  rw [← nameAt_eq_name]
  unfold padName
  by_cases hi : i.val < 8
  · rw [if_pos hi]
    by_cases hb : i.val < e.base.length
    · exact (DirectoryEntry.base_getD hb _).symm
    · rw [List.getD_eq_getElem?_getD, List.getElem?_eq_none (by omega)]
      exact blank_behind_base 8 (by simpa using hb) hi
  · have hsub : 8 + (i.val - 8) = i.val := by omega
    rw [if_neg hi]
    by_cases hx : i.val - 8 < e.ext.length
    · rw [DirectoryEntry.ext_getD hx, hsub]
    · rw [List.getD_eq_getElem?_getD, List.getElem?_eq_none (by omega), ← hsub]
      refine blank_behind_ext 3 ?_ (by omega)
      rw [DirectoryEntry.ext_length] at hx
      omega

theorem matchName_dots (hs : s = [chDot] ∨ s = [chDot, chDot]) : matchName s e = true ↔
    e.base = s ∧ e.ext = [] := by
  have hblank : ∀ c ∈ s, c ≠ chSpace := by
    rcases hs with rfl | rfl <;> simp [chDot, chSpace]
  have hiff : matchName s e = true ↔ e.name = padName s [] := by
    have hfun : e.name = padName s [] ↔ ∀ i : Fin 11, e.nameAt i.val = padName s [] i := by
      simp only [nameAt_eq_name, funext_iff]
    rw [hfun]
    rcases hs with rfl | rfl <;>
      simp [matchName, blankFrom, Fin.forall_fin_succ, padName, CStr.at, chDot, chSpace, and_assoc]
  rw [hiff]
  constructor
  · exact fun h => base_ext_of_name h (by rcases hs with rfl | rfl <;> simp) (by simp) hblank
      (fun _ h => absurd h List.not_mem_nil)
  · rintro ⟨hb, hx⟩
    rw [name_eq_padName e, hb, hx]

theorem isDotName_iff : isDotName s = true ↔ shown s = [chDot] ∨ shown s = [chDot, chDot] := by
  have h0 : (chDot : Byte) ≠ 0 := by decide
  rcases s with _ | ⟨a, _ | ⟨b, _ | ⟨c, cs⟩⟩⟩ <;>
    simp only [isDotName, shown, CStr.at, List.takeWhile_cons, List.takeWhile_nil] <;>
    grind

theorem at_zero_iff : s.at 0 = 0 ↔ shown s = [] := by
  cases s with
  | nil => simp [CStr.at, shown]
  | cons c cs => by_cases hc : c = 0 <;> simp [CStr.at, shown, hc]

theorem matchName_dot_shown (h : isDotName s = true) : matchName s e = matchName (shown s) e := by
  have h0 : (chDot : Byte) ≠ 0 := by decide
  have hcases : (s.at 0 = chDot ∧ s.at 1 = 0 ∧ shown s = [chDot]) ∨
      (s.at 0 = chDot ∧ s.at 1 = chDot ∧ s.at 2 = 0 ∧ shown s = [chDot, chDot]) := by
    rcases s with _ | ⟨a, _ | ⟨b, _ | ⟨c, cs⟩⟩⟩ <;>
      simp only [isDotName, shown, CStr.at, List.takeWhile_cons, List.takeWhile_nil] at h ⊢ <;>
      grind
  rcases hcases with ⟨h1, h2, hs⟩ | ⟨h1, h2, h3, hs⟩
  · unfold matchName
    rw [hs, if_pos ⟨h1, h2⟩, if_pos ⟨rfl, rfl⟩]
  · unfold matchName
    rw [hs, if_neg (fun h => h0 (h2.symm.trans h.2)), if_pos ⟨h1, h2, h3⟩, if_neg (by decide),
      if_pos ⟨rfl, rfl, rfl⟩]

theorem display_shown (e : DirectoryEntry) (hzero : (0 : Byte) ∉ e.base) :
    shown (buildDisplayName e) = e.base ++ (if e.ext = [] then [] else chDot :: e.shownExt) := by
  have hb : e.base.takeWhile (· != 0) = e.base :=
    List.takeWhile_eq_self_iff.mpr (fun c hc => by simpa using fun h : c = 0 => hzero (h ▸ hc))
  have hd : (chDot != (0 : Byte)) = true := by decide
  rw [DirectoryEntry.buildDisplayName_eq_base, shown, List.takeWhile_append, hb, if_pos rfl]
  split
  · rfl
  · rw [List.takeWhile_cons, hd]
    rfl

theorem not_dot_display (hdot : chDot ∉ e.base) (hzero : (0 : Byte) ∉ e.base)
    (h : e.base ≠ [] ∨ (e.shownExt ≠ [] ∧ e.shownExt ≠ [chDot])) :
    isDotName (buildDisplayName e) = false := by
  rw [← Bool.not_eq_true, isDotName_iff, display_shown e hzero]
  cases hb : e.base with
  | cons c cs =>
    rw [hb] at hdot
    have hc : c ≠ chDot := fun h => hdot (h ▸ List.mem_cons_self)
    simp [hc]
  | nil =>
    obtain ⟨h1, h2⟩ := h.resolve_left (fun hne => hne hb)
    have hext : e.ext ≠ [] := fun hx => h1 (by rw [DirectoryEntry.shownExt, hx]; rfl)
    simp [hext, h1, h2]

namespace DirectoryEntry

theorem Named.matchName_iff {e e' : DirectoryEntry} (h : e.Named) :
    matchName (buildDisplayName e) e' = true ↔ e'.Answers e := by
  unfold Answers
  rcases h with ⟨hx, hb⟩ | ⟨hdot, hzero, h⟩
  · have hs : buildDisplayName e = e.base := by
      rw [buildDisplayName_eq_base, if_pos hx, List.append_nil]
    have hlen : e.base.length ≠ 8 := by rcases hb with hb | hb <;> simp [hb, -base_length]
    rw [hs, matchName_dots hb, if_pos hx]
    simp only [hlen, false_or]
  · exact matchName_shown (not_dot_display hdot hzero h) (buildDisplayName_eq_base e)
      e.base_length_le e.ext_length_le hdot hzero

/-- An entry answers to its own display name exactly when it has a name to spell. -/
theorem named_iff {e : DirectoryEntry} : e.Named ↔
    (buildDisplayName e).at 0 ≠ 0 ∧ matchName (buildDisplayName e) e = true := by
  constructor
  · intro h
    refine ⟨fun h0 => ?_, h.matchName_iff.mpr (.refl e)⟩
    rcases h with ⟨hx, hb⟩ | ⟨hdot, hzero, h⟩
    · rw [buildDisplayName_eq_base, if_pos hx, List.append_nil] at h0
      rcases hb with hb | hb <;> simp [hb, CStr.at, chDot] at h0
    · rw [at_zero_iff, display_shown e hzero, List.append_eq_nil_iff] at h0
      obtain ⟨hx, _⟩ := h.resolve_left (fun hne => hne h0.1)
      have hext : e.ext ≠ [] := fun he => hx (by rw [shownExt, he]; rfl)
      rw [if_neg hext] at h0
      cases h0.2
  · rintro ⟨h0, hm⟩
    cases hnd : isDotName (buildDisplayName e) with
    | true =>
      rw [matchName_dot_shown hnd] at hm
      have hs := isDotName_iff.mp hnd
      obtain ⟨hb, hx⟩ := (matchName_dots hs).mp hm
      exact .inl ⟨hx, hb ▸ hs⟩
    | false =>
      -- the base name was matched to its end
      rw [matchName_plain hnd] at hm
      cases hL : matchBase (buildDisplayName e) e 8 0 with
      | none => rw [hL] at hm; cases hm
      | some L =>
        rw [hL, Option.elim] at hm
        have hlen : L = e.base.length := by
          by_contra hne
          rw [if_pos (by simpa using hne)] at hm
          cases hm
        have hin : ∀ c ∈ e.base, c ≠ chDot ∧ c ≠ 0 := by
          intro c hc
          obtain ⟨i, hi, rfl⟩ := List.getElem_of_mem hc
          have hat : (buildDisplayName e).at i = e.base[i] := by
            rw [buildDisplayName_eq_base]
            refine (CStr.at_append_left _ hi).trans ?_
            simp [List.getD_eq_getElem?_getD, hi, -base_length]
          rw [← hat]
          exact (matchBase_some 8 0 hL).2 i (Nat.zero_le i) (hlen ▸ hi)
        have hzero : (0 : Byte) ∉ e.base := fun h => (hin 0 h).2 rfl
        refine .inr ⟨fun h => (hin _ h).1 rfl, hzero, ?_⟩
        by_cases hb : e.base = []
        · have hshown := display_shown e hzero
          rw [hb, List.nil_append] at hshown
          have hext : e.ext ≠ [] := by
            intro hx
            rw [if_pos hx] at hshown
            exact h0 (at_zero_iff.mpr hshown)
          rw [if_neg hext] at hshown
          rw [← Bool.not_eq_true, isDotName_iff, hshown] at hnd
          exact .inr ⟨fun h => hnd (.inl (by rw [h])), fun h => hnd (.inr (by rw [h]))⟩
        · exact .inl hb

end DirectoryEntry

end Match

/-! ## Counting the visible slots -/

/-- The visible slot with number `index` among `ps`, when `current` of them were passed before: the
slot, `none` at the end mark, or the count at the end of the list. -/
def indexIn (index : Nat) (d : Disk) : List Slot → Nat → Except Nat (Option Slot)
  | [], current => .error current
  | p :: ps, current =>
    if (entryAt d p).isEnd then .ok none
    else if !(entryAt d p).isVisible then indexIn index d ps current
    else if current = index then .ok (some p)
    else indexIn index d ps (current + 1)

def visibleSlots (d : Disk) (ps : List Slot) : List Slot :=
  ps.filter (fun p => (entryAt d p).isVisible)

section Index

variable {index : Nat} {d : Disk}

theorem indexIn_append (ps qs : List Slot) (current : Nat) : indexIn index d (ps ++ qs) current =
    match indexIn index d ps current with
    | .ok r => .ok r
    | .error current => indexIn index d qs current := by
  induction ps generalizing current with
  | nil => rfl
  | cons p ps ih =>
    simp only [List.cons_append, indexIn]
    by_cases hend : (entryAt d p).isEnd = true
    · simp [hend]
    · by_cases hvis : (entryAt d p).isVisible = true
      · by_cases hi : current = index
        · simp [hend, hvis, hi]
        · simp [hend, hvis, hi, ih]
      · simp [hend, hvis, ih]

@[simp] theorem visibleSlots_nil : visibleSlots d [] = [] := rfl

theorem visibleSlots_cons {p : Slot} (h : (entryAt d p).isVisible = true) (ps : List Slot) :
    visibleSlots d (p :: ps) = p :: visibleSlots d ps := by
  simp [visibleSlots, h]

theorem visibleSlots_skip {p : Slot} (h : ¬ (entryAt d p).isVisible = true) (ps : List Slot) :
    visibleSlots d (p :: ps) = visibleSlots d ps := by
  simp [visibleSlots, h]

theorem EndMarked.visible_nil {p : Slot} (h : EndMarked d (p :: ps))
    (hend : (entryAt d p).isEnd = true) : visibleSlots d (p :: ps) = [] := by
  refine List.filter_eq_nil_iff.mpr (fun q hq => ?_)
  have hq : (entryAt d q).isEnd = true := by
    rcases List.mem_cons.mp hq with rfl | hq
    · exact hend
    · exact (List.pairwise_cons.mp h).1 q hq hend
  simp [DirectoryEntry.isVisible, hq]

theorem EndMarked.indexIn (h : EndMarked d ps) {current : Nat}
    (hle : current ≤ index) :
    (match indexIn index d ps current with | .ok r => r | .error _ => none) =
      (visibleSlots d ps)[index - current]? := by
  induction ps generalizing current with
  | nil => simp [Fat16.indexIn, visibleSlots]
  | cons p ps ih =>
    obtain ⟨hp, hps⟩ := List.pairwise_cons.mp h
    simp only [Fat16.indexIn]
    by_cases hend : (entryAt d p).isEnd = true
    · simp [hend, h.visible_nil hend]
    · by_cases hvis : (entryAt d p).isVisible = true
      · rw [visibleSlots_cons hvis]
        by_cases hi : current = index
        · simp [hend, hvis, hi]
        · simp only [hend, hvis, hi, Bool.not_true, Bool.false_eq_true, if_false]
          rw [ih hps (by omega), show index - current = (index - (current + 1)) + 1 by omega]
          rfl
      · rw [visibleSlots_skip hvis]
        simp only [hend, hvis, Bool.not_false, Bool.false_eq_true, if_false, if_true]
        exact ih hps hle

/-! ## The loops of `fat16_get_entry_by_index` -/

theorem indexFrom_eq (lba : Nat) : ∀ n i current : Nat,
    (match indexFrom index (d lba) n i current with
      | .ok r => .ok (r.map (fun i => (lba, i)))
      | .error n => .error n) =
      indexIn index d ((List.range' i n).map (fun k => (lba, k))) current := by
  intro n
  induction n with
  | zero => intro i current; rfl
  | succ n ih =>
    intro i current
    rw [List.range'_succ, List.map_cons]
    simp only [indexFrom, indexIn]
    show _ = if ((d lba).entry i).isEnd = true then _ else
      if (!((d lba).entry i).isVisible) = true then _ else if current = index then _ else _
    rw [← ih (i + 1) current, ← ih (i + 1) (current + 1)]
    by_cases hend : ((d lba).entry i).isEnd = true
    · simp [hend]
    · by_cases hvis : ((d lba).entry i).isVisible = true
      · by_cases hi : current = index
        · simp [hend, hvis, hi]
        · simp [hend, hvis, hi]
      · simp [hend, hvis]

end Index

def entryNumbered (d : Disk) : Except Nat (Option Slot) → Except Nat (Option DirectoryEntry)
  | .ok r => .ok (r.map (entryAt d))
  | .error n => .error n

theorem wp_indexSectors (hf : ¬ ctx.Faulty) (index base : Nat) :
    ∀ (n k current : Nat) (m : DriverMem), (indexSectors index base n k current).wp ctx
      (fun r m' => m'.disk = m.disk ∧ r = entryNumbered m.disk (indexIn index m.disk
        (slotsOf ((List.range' k n).map (fun i => base + i))) current)) m := by
  intro n
  induction n with
  | zero => intro k current m; exact ⟨rfl, rfl⟩
  | succ n ih =>
    intro k current m
    rw [List.range'_succ, List.map_cons, ← List.singleton_append, slotsOf_append, indexIn_append]
    have hsec : (match indexFrom index (m.disk (base + k)) entriesPerSector 0 current with
        | .ok r => .ok (r.map (fun i => (base + k, i)))
        | .error n => .error n) = indexIn index m.disk
          ((List.range' 0 entriesPerSector).map (fun i => (base + k, i))) current :=
      indexFrom_eq (base + k) entriesPerSector 0 current
    have hslots : (List.range' 0 entriesPerSector).map (fun i => (base + k, i)) =
        slotsOf [base + k] := by
      simp [slotsOf, List.range_eq_range']
    rw [hslots] at hsec
    unfold indexSectors
    simp only [Prog.wp_bind, wp_readSector]
    refine ⟨fun h => absurd ⟨m, h⟩ hf, ?_⟩
    simp only [if_true, Prog.wp_bind, wp_load, Mem.fetch_buf]
    rw [← hsec]
    cases hr : indexFrom index (m.disk (base + k)) entriesPerSector 0 current with
    | ok r => cases r <;> exact ⟨rfl, rfl⟩
    | error n => exact ih (k + 1) n (m.fetch .main (base + k))

def slotNumbered : Except Nat (Option Slot) → Option Slot
  | .ok r => r
  | .error _ => none

theorem wp_indexCluster (hf : ¬ ctx.Faulty) (index c current : Nat) :
    (indexSectors index (g.clusterSector c) g.bpb.sectorsPerCluster 0 current).wp ctx
      (fun r m' => m'.disk = m.disk ∧ r = entryNumbered m.disk (indexIn index m.disk
        (slotsOf (clusterSectors g c)) current)) m := by
  have h := wp_indexSectors hf index (g.clusterSector c) g.bpb.sectorsPerCluster 0 current m
  rwa [← List.range_eq_range'] at h

theorem wp_indexClusters (hg : g.Valid) (hf : ¬ ctx.Faulty) (index : Nat) :
    ∀ (l : List Nat) (fuel c current : Nat) (m : DriverMem), ChainFrom g m.disk c l →
      l.length ≤ fuel → (indexClusters g index fuel c current).wp ctx
        (fun r m' => m'.disk = m.disk ∧ r = (slotNumbered (indexIn index m.disk
          (slotsOf (l.flatMap (clusterSectors g))) current)).map (entryAt m.disk)) m := by
  intro l
  induction l with
  | nil =>
    intro fuel c current m hc _
    cases fuel <;> simp [indexClusters, show g.isDataCluster c = false from hc, slotsOf, indexIn,
      slotNumbered]
  | cons x l ih =>
    intro fuel c current m hc hlen
    obtain ⟨rfl, hx, hl⟩ := hc
    cases fuel with
    | zero => simp at hlen
    | succ fuel =>
      unfold indexClusters
      simp only [hx, if_true, Prog.wp_bind]
      refine Prog.wp_mono (wp_indexCluster hf index c current) ?_
      rintro r m1 ⟨hd1, rfl⟩
      rw [List.flatMap_cons, slotsOf_append, indexIn_append]
      cases hr : indexIn index m.disk (slotsOf (clusterSectors g c)) current with
      | ok r => exact ⟨hd1, rfl⟩
      | error n =>
        simp only [entryNumbered, Prog.wp_bind, getNextCluster, Nat.mod_eq_of_lt (data_lt hg hx)]
        refine Prog.wp_mono (wp_readFatEntry c) ?_
        rintro v m2 ⟨hd2, _, hv⟩
        have hdisk : m2.disk = m.disk := hd2.trans hd1
        have hval : v = fatGet g m.disk c := by
          rcases hv with hv | ⟨h, _⟩
          · rw [hv, hd1]
          · exact absurd h.faulty hf
        have hch : ChainFrom g m2.disk v l := by rw [hval, hdisk]; exact hl
        refine Prog.wp_mono (ih fuel v n m2 hch (by simp at hlen; omega)) ?_
        rintro r m3 ⟨hd3, hr3⟩
        rw [hdisk] at hr3
        exact ⟨hd3.trans hdisk, hr3⟩

/-- What `fat16_get_entry_by_index` tells of an entry. -/
def listed (e : DirectoryEntry) : CStr × Bool × Nat :=
  (buildDisplayName e, e.isDirectory, e.fileSize.toNat)

/-- Entry number `index` is the visible entry of that number. -/
theorem wp_getEntryByIndex (hg : g.Valid) (hf : ¬ ctx.Faulty) {dir fuel : Nat} {l : List Nat}
    (hd : DirOk g m.disk dir l) (hfuel : g.getTotalClusters ≤ fuel) (index : Nat) :
    (getEntryByIndex g fuel dir index).wp ctx (fun r m' => m'.disk = m.disk ∧
      r = (visibleSlots m.disk (dirSlots g dir l))[index]?.map
        (fun p => listed (entryAt m.disk p))) m := by
  have hlen := hd.chained.length_le hg
  have hslot : slotNumbered (indexIn index m.disk (dirSlots g dir l) 0) =
      (visibleSlots m.disk (dirSlots g dir l))[index]? := hd.endMarked.indexIn (Nat.zero_le index)
  unfold getEntryByIndex
  rw [← hslot]
  by_cases h0 : dir = 0
  · subst h0
    simp only [if_true, Prog.wp_bind]
    refine Prog.wp_mono (wp_indexSectors hf index _ _ 0 0 m) ?_
    rintro r m1 ⟨hd1, rfl⟩
    rw [← List.range_eq_range']
    have hroot : slotsOf ((List.range g.getRootDirSectors).map
        (fun i => g.getRootDirStart + i)) = dirSlots g 0 l := rfl
    rw [hroot]
    cases indexIn index m.disk (dirSlots g 0 l) 0 with
    | ok r => exact ⟨hd1, by cases r <;> rfl⟩
    | error n => exact ⟨hd1, rfl⟩
  · simp only [h0, if_false, Prog.wp_bind]
    refine Prog.wp_mono (wp_indexClusters hg hf index l fuel dir 0 m
      ((hd.chained.chainOf h0).from hg) (by omega)) ?_
    rintro r m1 ⟨hd1, rfl⟩
    refine ⟨hd1, ?_⟩
    unfold dirSlots dirSectors
    rw [if_neg h0, Option.map_map]
    rfl

/-! ## The listing on the screen -/

/-- `print_entry_name`. -/
def printEntryName (e : DirectoryEntry) : List Byte :=
  (List.range 8).map e.nameAt ++
    (if blankFrom e 3 8 then [chSpace, chSpace, chSpace, chSpace] else chDot :: e.extField)

def textOf (s : String) : List Byte := s.toList.map (fun c => UInt8.ofNat c.toNat)

def listLine (e : DirectoryEntry) : List Byte :=
  printEntryName e ++ textOf "  " ++ textOf (if e.isDirectory then "<DIR>" else "     ") ++
    textOf "\n"

def listIn (pattern : CStr) (d : Disk) : List Slot → List Byte → Bool × List Byte
  | [], out => (false, out)
  | p :: ps, out =>
    if (entryAt d p).isEnd then (true, out)
    else if !(entryAt d p).isVisible then listIn pattern d ps out
    else if !matchPattern pattern (entryAt d p) then listIn pattern d ps out
    else listIn pattern d ps (out ++ listLine (entryAt d p))

section List

variable {pattern : CStr} {d : Disk}

end List

theorem lookup_eq_find (name : CStr) (d : Disk) (ps : List Slot) : lookup name d ps =
    (visibleSlots d ps).find? (fun p => matchName name (entryAt d p)) := by
  unfold lookup visibleSlots DirectoryEntry.hits
  rw [List.find?_filter]
  exact congrArg (fun f => ps.find? f) (funext fun p => by simp [Bool.decide_and])

/-- The visible entry `i` has a name to spell, and no visible entry in front of it answers to that
name. -/
def LeadsBack (d : Disk) (ps : List Slot) (i : Nat) (p : Slot) : Prop :=
  (entryAt d p).Named ∧ ∀ j < i, ∀ q, (visibleSlots d ps)[j]? = some q →
    ¬ (entryAt d q).Answers (entryAt d p)

theorem lookup_display_iff {d : Disk} (hn : ps.Nodup) {i : Nat} {p : Slot}
    (hp : (visibleSlots d ps)[i]? = some p) :
    ((buildDisplayName (entryAt d p)).at 0 ≠ 0 ∧
        lookup (buildDisplayName (entryAt d p)) d ps = some p) ↔ LeadsBack d ps i p := by
  have hvn : (visibleSlots d ps).Nodup := hn.sublist List.filter_sublist
  obtain ⟨hi, hpi⟩ := List.getElem?_eq_some_iff.mp hp
  rw [lookup_eq_find, List.find?_eq_some_iff_getElem]
  constructor
  · rintro ⟨h0, hm, k, hk, hpk, hbefore⟩
    have hname := DirectoryEntry.named_iff.mpr ⟨h0, hm⟩
    have hki : k = i := (List.Nodup.getElem_inj_iff hvn).mp (hpk.trans hpi.symm)
    subst hki
    refine ⟨hname, fun j hj q hq hans => ?_⟩
    obtain ⟨hjl, rfl⟩ := List.getElem?_eq_some_iff.mp hq
    have := hbefore j hj
    rw [hname.matchName_iff.mpr hans] at this
    cases this
  · rintro ⟨hname, hbefore⟩
    obtain ⟨h0, hm⟩ := DirectoryEntry.named_iff.mp hname
    refine ⟨h0, hm, i, hi, hpi, fun j hj => ?_⟩
    have hjl : j < (visibleSlots d ps).length := by omega
    rw [Bool.not_eq_true', ← Bool.not_eq_true, hname.matchName_iff]
    exact hbefore j hj _ (List.getElem?_eq_getElem hjl)

theorem wp_findEntry_named (hg : g.Valid) (hf : ¬ ctx.Faulty) {dir fuel : Nat} {l : List Nat}
    (hd : DirOk g m.disk dir l) (hfuel : g.getTotalClusters ≤ fuel) (name : CStr) :
    (findEntry g fuel dir name).wp ctx (fun r m' => m'.disk = m.disk ∧
      r = if name.at 0 = 0 then none
        else (lookup name m.disk (dirSlots g dir l)).map (locate m.disk)) m := by
  unfold findEntry
  by_cases h0 : name.at 0 = 0
  · simp [h0]
  · simp only [h0, if_false]
    refine Prog.wp_mono (wp_findEntryInternal hg hd hfuel name) ?_
    rintro r m' ⟨hdisk, _, hr | ⟨h, _⟩⟩
    · exact ⟨hdisk, hr⟩
    · exact absurd h.faulty hf

theorem locate_inj {d : Disk} {p q : Slot} (h : locate d p = locate d q) : p = q := by
  unfold locate at h
  injection h with _ h1 h2
  exact Prod.ext h1 h2

/-- In every live directory of a well-formed volume, number `i` lists the visible entry `i`, and
none from the number of visible entries on. The lookup of the display name gives the same entry
exactly when that name leads back to it. -/
theorem getEntryByIndex_lookup_iff (hg : g.Valid) (hw : WellFormed g m.disk) {dir fuel : Nat}
    {l : List Nat} (hdir : IsDir g m.disk dir) (hl : Chained g m.disk dir l)
    (hfuel : g.getTotalClusters ≤ fuel) (i : Nat) :
    ∃ m₁, (getEntryByIndex g fuel dir i).run noFaults m =
        some ((visibleSlots m.disk (dirSlots g dir l))[i]?.map (fun p => listed (entryAt m.disk p)),
          m₁) ∧
      ∀ p, (visibleSlots m.disk (dirSlots g dir l))[i]? = some p →
        ((∃ m₂, (findEntry g fuel dir (buildDisplayName (entryAt m.disk p))).run noFaults m₁ =
            some (some (locate m.disk p), m₂)) ↔ LeadsBack m.disk (dirSlots g dir l) i p) := by
  have hok : DirOk g m.disk dir l := ⟨hl, hw.endMarked dir l hdir hl⟩
  obtain ⟨r, m₁, hrun, hd1, rfl⟩ := Prog.exists_run
    (wp_getEntryByIndex hg (Ctx.total_not_faulty (fun _ => True)) hok hfuel i)
  refine ⟨m₁, hrun, fun p hp => ?_⟩
  obtain ⟨r, m₂, hrun₂, _, hr⟩ := Prog.exists_run
    (wp_findEntry_named hg (Ctx.total_not_faulty (fun _ => True)) (hd1.symm ▸ hok) hfuel
      (buildDisplayName (entryAt m.disk p)))
  rw [hd1] at hr
  rw [hrun₂, ← lookup_display_iff (hl.slots_nodup hg) hp]
  constructor
  · rintro ⟨m₃, h⟩
    obtain ⟨rfl, rfl⟩ := Prod.mk.inj (Option.some.inj h)
    by_cases h0 : (buildDisplayName (entryAt m.disk p)).at 0 = 0
    · rw [if_pos h0] at hr
      cases hr
    · rw [if_neg h0] at hr
      obtain ⟨q, hq, he⟩ := Option.map_eq_some_iff.mp hr.symm
      rw [locate_inj he] at hq
      exact ⟨h0, hq⟩
  · rintro ⟨h0, hq⟩
    rw [if_neg h0, hq] at hr
    exact ⟨m₂, by rw [hr]; rfl⟩

/-- `B` and `A.T` are written, `B` is deleted and `A.TXT` takes its slot. -/
def prefixMem : DriverMem :=
  after (.writeFileFromDir 0 [0x41, 0x2E, 0x54, 0x58, 0x54] none 0)
    (after (.deleteEntry 0 [0x42])
      (after (.writeFileFromDir 0 [0x41, 0x2E, 0x54] none 0)
        (after (.writeFileFromDir 0 [0x42] none 0) blankMem)))

theorem prefixMem_wellFormed : WellFormed smallVolume prefixMem.disk := by
  unfold prefixMem
  refine after_wellFormed (after_wellFormed (after_wellFormed (after_wellFormed
    (blankDisk_wellFormed smallVolume) ⟨.root, ?_⟩) ⟨.root, ?_⟩) ⟨.root, ?_⟩) ⟨.root, ?_⟩ <;> decide

/-- Number 0 in that directory is `A.TXT`, and the lookup of that name leads back. -/
theorem getEntryByIndex_lookup_first :
    ∃ m₁, (getEntryByIndex smallVolume 3 0 0).run noFaults prefixMem =
        some (some (listed (entryAt prefixMem.disk (3, 0))), m₁) ∧
      ∃ m₂, (findEntry smallVolume 3 0 (buildDisplayName (entryAt prefixMem.disk (3, 0)))).run
        noFaults m₁ = some (some (locate prefixMem.disk (3, 0)), m₂) := by
  have hfuel : smallVolume.getTotalClusters ≤ 3 := by decide
  obtain ⟨m₁, hrun, hlead⟩ := getEntryByIndex_lookup_iff smallVolume_valid prefixMem_wellFormed .root
    (.inl ⟨rfl, rfl⟩) hfuel 0
  have hfirst : (visibleSlots prefixMem.disk (dirSlots smallVolume 0 []))[0]? = some (3, 0) := by
    decide +kernel
  rw [hfirst] at hrun
  have hnamed : (entryAt prefixMem.disk (3, 0)).Named :=
    DirectoryEntry.named_iff.mpr (by decide +kernel)
  exact ⟨m₁, hrun, (hlead (3, 0) hfirst).mpr ⟨hnamed, fun j hj => absurd hj (Nat.not_lt_zero j)⟩⟩

/-- Number 1 is `A.T`; the lookup of that name gives the entry of `A.TXT` in front of it. -/
theorem listed_name_leads_elsewhere :
    WellFormed smallVolume prefixMem.disk ∧
      (visibleSlots prefixMem.disk (dirSlots smallVolume 0 []))[1]? = some (3, 1) ∧
      buildDisplayName (entryAt prefixMem.disk (3, 1)) = [0x41, 0x2E, 0x54] ∧
      ∀ m₁ : DriverMem, m₁.disk = prefixMem.disk →
        ¬ ∃ m₂, (findEntry smallVolume 3 0 [0x41, 0x2E, 0x54]).run noFaults m₁ =
          some (some (locate prefixMem.disk (3, 1)), m₂) := by
  refine ⟨prefixMem_wellFormed, by decide +kernel, by decide +kernel, fun m₁ hd => ?_⟩
  have hok : DirOk smallVolume m₁.disk 0 [] := by
    rw [hd]
    exact ⟨.inl ⟨rfl, rfl⟩, prefixMem_wellFormed.endMarked 0 [] .root (.inl ⟨rfl, rfl⟩)⟩
  obtain ⟨r, m₂, hrun, _, hr⟩ := Prog.exists_run
    (wp_findEntry_named smallVolume_valid (Ctx.total_not_faulty (fun _ => True)) hok (show _ ≤ 3 by decide)
      [0x41, 0x2E, 0x54])
  have hl : lookup [0x41, 0x2E, 0x54] prefixMem.disk (dirSlots smallVolume 0 []) = some (3, 0) := by
    decide +kernel
  rw [hd, hl] at hr
  rintro ⟨m₃, hother⟩
  rw [hrun, hr] at hother
  have hsame := locate_inj (Option.some.inj (Prod.mk.inj (Option.some.inj hother)).1)
  cases hsame

end Fat16
end MiniDos
