import Mathlib.Data.List.TakeWhile
import MiniDos.Fat.NameSpec

/-!
# MiniDos.Fat.Grammar

The 8.3 grammar that `fat16_format_name`, `fat16_match_name` and `fat16_build_display_name` each
treat in their own way.

* `Parts`: base and extension of a name as the formatter stores them.
* `formatName_eq`: which strings the formatter accepts, and what it stores.
* `formatName_display`: a formatted name comes back from its display.
* `formatName_storable_iff`: the strings whose formatted name can stand in a directory.
* `matchName_agrees_iff`: the names and entries on which the matcher and the formatter agree.
-/

namespace MiniDos
namespace Fat16

variable {e : DirectoryEntry}

/-! ## Parts of a name -/

/-- A character that a field may hold. -/
def Plain (c : Byte) : Prop := c ≠ chSpace ∧ c ∉ invalidChars

instance (c : Byte) : Decidable (Plain c) := inferInstanceAs (Decidable (_ ∧ _))

/-- The characters in front of the first dot. -/
def baseOf (s : CStr) : List Byte := s.takeWhile (· != chDot)

/-- The characters behind it. -/
def extOf (s : CStr) : List Byte := (s.dropWhile (· != chDot)).tail

/-- A string that `fat16_format_name` accepts. -/
structure Accepts (s : CStr) : Prop where
  first : s.at 0 ≠ 0
  notDot : isDotName s = false
  baseLength : (baseOf s).length ≤ 8
  baseChars : ∀ c ∈ baseOf s, Plain (upperChar c)
  extLength : (extOf s).length ≤ 3
  extChars : ∀ c ∈ extOf s, Plain (upperChar c)

theorem upperChar_upperChar (c : Byte) : upperChar (upperChar c) = upperChar c := by
  have h : ∀ b : BitVec 8, upperChar (upperChar ⟨b⟩) = upperChar ⟨b⟩ := by decide
  exact h c.toBitVec

/-- A character that does not end the field it stands in. -/
def goesOn (stopAtDot : Bool) (c : Byte) : Bool := !(stopAtDot && c == chDot)

/-- At most `room` characters, all plain. -/
def FieldOk (room : Nat) (cs : List Byte) : Prop :=
  cs.length ≤ room ∧ ∀ c ∈ cs, Plain (upperChar c)

instance (room : Nat) (cs : List Byte) : Decidable (FieldOk room cs) :=
  @instDecidableAnd _ _ _ (List.decidableBAll _ _)

/-- One field: the characters up to where it ends, all plain and not too many. -/
theorem formatField_eq (stopAtDot : Bool) (s : CStr) (room : Nat) :
    formatField stopAtDot room s =
      if FieldOk room (s.takeWhile (goesOn stopAtDot)) then
        some ((s.takeWhile (goesOn stopAtDot)).map upperChar, s.dropWhile (goesOn stopAtDot))
      else none := by
  induction s generalizing room with
  | nil => simp [formatField, FieldOk]
  | cons c cs ih =>
    unfold formatField
    by_cases hend : (stopAtDot && c == chDot) = true
    · have hgo : goesOn stopAtDot c = false := by rw [goesOn, hend]; rfl
      rw [if_pos hend, List.takeWhile_cons, List.dropWhile_cons, hgo]
      simp [FieldOk]
    · have hgo : goesOn stopAtDot c = true := by
        rw [goesOn, Bool.not_eq_true _ |>.mp hend]; rfl
      rw [if_neg hend, List.takeWhile_cons, List.dropWhile_cons, hgo, if_pos rfl, if_pos rfl]
      cases room with
      | zero => exact (if_neg (fun h => absurd h.1 (Nat.not_succ_le_zero _))).symm
      | succ room =>
        have hcons : FieldOk (room + 1) (c :: cs.takeWhile (goesOn stopAtDot)) ↔
            Plain (upperChar c) ∧ FieldOk room (cs.takeWhile (goesOn stopAtDot)) := by
          unfold FieldOk
          rw [List.length_cons, Nat.add_le_add_iff_right, List.forall_mem_cons]
          exact and_left_comm
        dsimp only
        by_cases hplain : Plain (upperChar c)
        · rw [if_neg hplain.1, if_neg hplain.2, ih]
          by_cases hrest : FieldOk room (cs.takeWhile (goesOn stopAtDot))
          · rw [if_pos hrest, if_pos (hcons.mpr ⟨hplain, hrest⟩)]
            rfl
          · rw [if_neg hrest, if_neg (fun h => hrest (hcons.mp h).2)]
        · rw [if_neg (fun h => hplain (hcons.mp h).1)]
          by_cases hspace : upperChar c = chSpace
          · rw [if_pos hspace]
          · have hinvalid : upperChar c ∈ invalidChars := by
              by_contra hno
              exact hplain ⟨hspace, hno⟩
            rw [if_neg hspace, if_pos hinvalid]

/-- What the formatter accepts, and what it stores. -/
theorem formatName_eq_some {s : CStr} {n : Name} : formatName s = some n ↔
    Accepts s ∧ n = padName ((baseOf s).map upperChar) ((extOf s).map upperChar) := by
  have hbase := formatField_eq true s 8
  have hstop : goesOn true = (· != chDot) := by funext c; simp [goesOn, bne]
  rw [hstop] at hbase
  unfold formatName
  by_cases hfirst : s.at 0 = 0
  · rw [if_pos hfirst]
    exact ⟨fun h => (nomatch h), fun h => absurd hfirst h.1.first⟩
  rw [if_neg hfirst]
  by_cases hdot : isDotName s = true
  · rw [if_pos hdot]
    exact ⟨fun h => (nomatch h), fun h => absurd (h.1.notDot.symm.trans hdot) (by decide)⟩
  rw [if_neg hdot]
  by_cases hok : FieldOk 8 (baseOf s)
  case neg =>
    have hnone : formatField true 8 s = none := by rw [hbase]; exact if_neg hok
    rw [hnone]
    exact ⟨fun h => (nomatch h), fun h => absurd ⟨h.1.baseLength, h.1.baseChars⟩ hok⟩
  case pos =>
    have hsome : formatField true 8 s = some ((baseOf s).map upperChar, s.dropWhile (· != chDot)) := by
      rw [hbase]; exact if_pos hok
    rw [hsome]
    have hnotDot : isDotName s = false := by simpa using hdot
    dsimp only
    cases hrest : s.dropWhile (· != chDot) with
    | nil =>
      have hext : extOf s = [] := by rw [extOf, hrest]; rfl
      rw [hext, Option.some.injEq]
      refine ⟨fun h => ⟨⟨hfirst, hnotDot, hok.1, hok.2, ?_, ?_⟩, h.symm⟩, fun h => h.2.symm⟩
      · rw [hext]
        exact Nat.zero_le _
      · rw [hext]
        exact fun c hc => nomatch hc
    | cons x tail =>
      have hext : extOf s = tail := by rw [extOf, hrest]; rfl
      have htail := formatField_eq false tail 3
      have hwhole : tail.takeWhile (goesOn false) = tail :=
        List.takeWhile_eq_self_iff.mpr (fun _ _ => rfl)
      rw [hwhole] at htail
      dsimp only
      rw [htail]
      by_cases hokExt : FieldOk 3 tail
      · rw [if_pos hokExt, hext]
        simp only [Option.some.injEq]
        refine ⟨fun h => ⟨⟨hfirst, hnotDot, hok.1, hok.2, ?_, ?_⟩, h.symm⟩, fun h => h.2.symm⟩
        · rw [hext]
          exact hokExt.1
        · rw [hext]
          exact hokExt.2
      · rw [if_neg hokExt]
        refine ⟨fun h => (nomatch h), fun h => absurd ⟨?_, ?_⟩ hokExt⟩
        · rw [← hext]
          exact h.1.extLength
        · rw [← hext]
          exact h.1.extChars

/-! ## Splitting a name -/

theorem ne_dot_of_mem_baseOf {s : CStr} {c : Byte} (h : c ∈ baseOf s) : c ≠ chDot := by
  simpa using List.mem_takeWhile_imp h

theorem name_split (s : CStr) :
    (s = baseOf s ∧ extOf s = [] ∧ chDot ∉ s) ∨ s = baseOf s ++ chDot :: extOf s := by
  have happ : baseOf s ++ s.dropWhile (· != chDot) = s := List.takeWhile_append_dropWhile
  cases hrest : s.dropWhile (· != chDot) with
  | nil =>
    rw [hrest, List.append_nil] at happ
    refine .inl ⟨happ.symm, by rw [extOf, hrest]; rfl, fun hdot => ?_⟩
    rw [← happ] at hdot
    exact ne_dot_of_mem_baseOf hdot rfl
  | cons c rest =>
    have hc : c = chDot := by
      have := List.head?_dropWhile_not (· != chDot) s
      rw [hrest] at this
      simpa using this
    refine .inr ?_
    rw [extOf, hrest, List.tail_cons, ← hc, ← hrest]
    exact happ.symm

theorem baseOf_baseOf (s : CStr) : baseOf (baseOf s) = baseOf s := List.takeWhile_idem

theorem extOf_baseOf (s : CStr) : extOf (baseOf s) = [] := by
  have : (baseOf s).dropWhile (· != chDot) = [] :=
    List.dropWhile_eq_nil_iff.mpr (fun c hc => by simpa using ne_dot_of_mem_baseOf hc)
  rw [extOf, this]
  rfl

theorem upperChar_eq_dot_iff {c : Byte} : upperChar c = chDot ↔ c = chDot :=
  ⟨upperChar_eq_dot, fun h => by rw [h]; decide⟩

theorem upper_dot_comp : ((· != chDot) ∘ upperChar) = (· != chDot) := by
  funext c
  rw [Function.comp_apply, Bool.eq_iff_iff, bne_iff_ne, bne_iff_ne, ne_eq, ne_eq,
    upperChar_eq_dot_iff]

theorem baseOf_map (s : CStr) : baseOf (s.map upperChar) = (baseOf s).map upperChar := by
  rw [baseOf, List.takeWhile_map, upper_dot_comp, baseOf]

theorem extOf_map (s : CStr) : extOf (s.map upperChar) = (extOf s).map upperChar := by
  rw [extOf, List.dropWhile_map, upper_dot_comp, ← List.map_tail, extOf]

theorem CStr.at_map (s : CStr) (i : Nat) : CStr.at (s.map upperChar) i = upperChar (s.at i) := by
  unfold CStr.at
  rw [List.getD_eq_getElem?_getD, List.getD_eq_getElem?_getD, List.getElem?_map]
  cases s[i]? with
  | none => rfl
  | some c => rfl

theorem map_upperChar_idem (l : List Byte) : (l.map upperChar).map upperChar = l.map upperChar := by
  rw [List.map_map]
  exact List.map_congr_left (fun c _ => upperChar_upperChar c)

theorem padName_inj {base ext base' ext' : List Byte} (h : padName base ext = padName base' ext')
    (hb : base.length ≤ 8) (hb' : base'.length ≤ 8) (he : ext.length ≤ 3) (he' : ext'.length ≤ 3)
    (hbc : ∀ c ∈ base, c ≠ chSpace) (hbc' : ∀ c ∈ base', c ≠ chSpace)
    (hec : ∀ c ∈ ext, c ≠ chSpace) (hec' : ∀ c ∈ ext', c ≠ chSpace) : base = base' ∧ ext = ext' := by
  let e := newEntry (padName base ext) 0 0 0
  have hown : e.name = padName base ext := rfl
  have hother : e.name = padName base' ext' := h
  have hlen : base.length = base'.length :=
    (dirNameEnd_eq hown hb hbc 8 hb (Nat.le_refl 8)).symm.trans
      (dirNameEnd_eq hother hb' hbc' 8 hb' (Nat.le_refl 8))
  have hbase : base = base' := (base_eq_iff hother hb).mp
    ⟨hlen, ((base_eq_iff hown hb).mpr rfl).2⟩
  have hpre : ext <+: ext' := (ext_prefix_iff hother he hec).mp
    ((ext_prefix_iff hown he hec).mpr List.prefix_rfl)
  have hpre' : ext' <+: ext := (ext_prefix_iff hown he' hec').mp
    ((ext_prefix_iff hother he' hec').mpr List.prefix_rfl)
  exact ⟨hbase, hpre.eq_of_length (Nat.le_antisymm hpre.length_le hpre'.length_le)⟩

/-! ## The display of a formatted name -/

theorem extEnd_eq {base ext : List Byte} (he : e.name = padName base ext)
    (hlen : ext.length ≤ 3) (hchars : ∀ c ∈ ext, c ≠ chSpace) :
    ∀ n, ext.length ≤ n → n ≤ 3 → extEnd e n = 8 + ext.length := by
  intro n
  induction n with
  | zero => intro h _; unfold extEnd; omega
  | succ n ih =>
    intro hn h3
    unfold extEnd
    by_cases hlast : ext.length = n + 1
    · have hlt : n < ext.length := by omega
      have : e.nameAt (8 + n) ≠ chSpace := by
        rw [nameAt_ext he (by omega), List.getD_eq_getElem?_getD, List.getElem?_eq_getElem hlt]
        exact hchars _ (List.getElem_mem hlt)
      rw [if_neg this, hlast]
    · have : e.nameAt (8 + n) = chSpace := by
        rw [nameAt_ext he (by omega), List.getD_eq_getElem?_getD, List.getElem?_eq_none (by omega)]
        rfl
      rw [if_pos this]
      exact ih (by omega) (by omega)

theorem map_range_getD (l : List Byte) (f : Nat → Byte) (h : ∀ i < l.length, f i = l.getD i chSpace) :
    (List.range l.length).map f = l := by
  refine List.ext_getElem (by simp) (fun i hi hi' => ?_)
  rw [List.getElem_map, List.getElem_range, h i hi', List.getD_eq_getElem?_getD,
    List.getElem?_eq_getElem hi']
  rfl

theorem buildDisplayName_eq {base ext : List Byte}
    (he : e.name = padName base ext) (hbl : base.length ≤ 8) (hel : ext.length ≤ 3)
    (hbase : ∀ c ∈ base, c ≠ chSpace) (hext : ∀ c ∈ ext, c ≠ chSpace) :
    buildDisplayName e = base ++ (if ext = [] then [] else chDot :: ext) := by
  unfold buildDisplayName
  rw [dirNameEnd_eq he hbl hbase 8 hbl (Nat.le_refl 8), extEnd_eq he hel hext 3 hel (Nat.le_refl 3)]
  dsimp only
  rw [map_range_getD base _ (fun i hi => nameAt_base he (by omega)), Nat.add_sub_cancel_left,
    map_range_getD ext _ (fun i hi => nameAt_ext he (by omega))]
  cases ext with
  | nil => rfl
  | cons c cs => rw [if_pos (by simp), if_neg (by simp)]

namespace Accepts

variable {s : CStr} (h : Accepts s)

theorem stored_plain {l : List Byte} (hl : ∀ c ∈ l, Plain (upperChar c)) :
    ∀ c ∈ l.map upperChar, c ≠ chSpace := by
  intro c hc
  obtain ⟨d, hd, rfl⟩ := List.mem_map.mp hc
  exact (hl d hd).1

include h

/-- The same string in capitals. -/
theorem map : Accepts (s.map upperChar) := by
  refine ⟨?_, ?_, ?_, ?_, ?_, ?_⟩
  · rw [CStr.at_map]
    exact upperChar_ne_zero h.first
  · have hsame : isDotName (s.map upperChar) = isDotName s := by
      have hzero : ∀ c : Byte, (upperChar c == 0) = (c == 0) := by
        intro c
        rw [Bool.eq_iff_iff, beq_iff_eq, beq_iff_eq]
        exact ⟨fun hc => by_contra fun hne => upperChar_ne_zero hne hc, fun hc => by rw [hc]; decide⟩
      have hdot : ∀ c : Byte, (upperChar c == chDot) = (c == chDot) := by
        intro c
        rw [Bool.eq_iff_iff, beq_iff_eq, beq_iff_eq, upperChar_eq_dot_iff]
      simp only [isDotName, CStr.at_map, hzero, hdot]
    rw [hsame]
    exact h.notDot
  · rw [baseOf_map, List.length_map]
    exact h.baseLength
  · rw [baseOf_map]
    intro c hc
    obtain ⟨d, hd, rfl⟩ := List.mem_map.mp hc
    rw [upperChar_upperChar]
    exact h.baseChars d hd
  · rw [extOf_map, List.length_map]
    exact h.extLength
  · rw [extOf_map]
    intro c hc
    obtain ⟨d, hd, rfl⟩ := List.mem_map.mp hc
    rw [upperChar_upperChar]
    exact h.extChars d hd

theorem base (hext : extOf s = []) : Accepts (baseOf s) := by
  have hfirst : CStr.at (baseOf s) 0 = s.at 0 := by
    rcases name_split s with ⟨hs, _, _⟩ | hs
    · exact congrArg (CStr.at · 0) hs.symm
    · cases hb : baseOf s with
      | nil =>
        rw [hb, hext] at hs
        rw [hs] at h
        exact absurd h.notDot (by decide)
      | cons c cs =>
        rw [hb] at hs
        rw [hs]
        rfl
  have hne : CStr.at (baseOf s) 0 ≠ chDot := by
    cases hb : baseOf s with
    | nil => decide
    | cons c cs => exact ne_dot_of_mem_baseOf (hb ▸ List.mem_cons_self : c ∈ baseOf s)
  refine ⟨hfirst ▸ h.first, by simp [isDotName, hne], ?_, ?_, ?_, ?_⟩
  · rw [baseOf_baseOf]
    exact h.baseLength
  · rw [baseOf_baseOf]
    exact h.baseChars
  · rw [extOf_baseOf]
    exact Nat.zero_le _
  · rw [extOf_baseOf]
    exact fun c hc => nomatch hc

end Accepts

theorem formatName_display {s : CStr} {n : Name} (hn : formatName s = some n)
    (he : e.name = n) : formatName (buildDisplayName e) = some n := by
  obtain ⟨h, rfl⟩ := formatName_eq_some.mp hn
  have hdisplay := buildDisplayName_eq he (by rw [List.length_map]; exact h.baseLength)
    (by rw [List.length_map]; exact h.extLength) (Accepts.stored_plain h.baseChars)
    (Accepts.stored_plain h.extChars)
  rw [hdisplay, formatName_eq_some]
  by_cases hext : extOf s = []
  · rw [hext, List.map_nil, if_pos rfl, List.append_nil, ← baseOf_map]
    have hmap : extOf (s.map upperChar) = [] := by rw [extOf_map, hext]; rfl
    refine ⟨h.map.base hmap, ?_⟩
    rw [baseOf_baseOf, extOf_baseOf, baseOf_map, map_upperChar_idem]
    rfl
  · rw [if_neg (by simpa using hext)]
    have hs : s.map upperChar =
        (baseOf s).map upperChar ++ chDot :: (extOf s).map upperChar := by
      rcases name_split s with ⟨_, hno, _⟩ | hs
      · exact absurd hno hext
      · conv_lhs => rw [hs]
        rw [List.map_append, List.map_cons, upperChar_eq_dot_iff.mpr rfl]
    rw [← hs]
    refine ⟨h.map, ?_⟩
    rw [baseOf_map, extOf_map, map_upperChar_idem, map_upperChar_idem]

/-- The formatter checks neither end nor deletion mark: a first byte 0xE5 goes through. -/
theorem formatName_storable_iff {s : CStr} {n : Name} {e : DirectoryEntry}
    (hn : formatName s = some n) (he : e.name = n) :
    (n 0 ≠ 0 ∧ n 0 ≠ 0xE5 ∧ (buildDisplayName e).length ≤ 12 ∧
      formatName (buildDisplayName e) = some n) ↔ s.at 0 ≠ 0xE5 := by
  have hmark : n 0 ≠ 0xE5 ↔ s.at 0 ≠ 0xE5 := by
    have hupper : ∀ c : Byte, upperChar c = 0xE5 ↔ c = 0xE5 := by
      have h : ∀ b : BitVec 8, upperChar ⟨b⟩ = 0xE5 ↔ (⟨b⟩ : Byte) = 0xE5 := by decide
      exact fun c => h c.toBitVec
    obtain ⟨h, rfl⟩ := formatName_eq_some.mp hn
    cases hb : baseOf s with
    | nil =>
      have hs : s.at 0 = chDot := by
        rcases name_split s with ⟨hs, _, _⟩ | hs
        · rw [hb] at hs
          rw [hs] at h
          exact absurd rfl h.first
        · rw [hb] at hs
          rw [hs]
          rfl
      have hstored : padName ([].map upperChar) ((extOf s).map upperChar) 0 = chSpace := rfl
      rw [hs, hstored]
      exact iff_of_true (by decide) (by decide)
    | cons c cs =>
      have hs : s.at 0 = c := by
        rcases name_split s with ⟨hs, _, _⟩ | hs <;> rw [hs, hb] <;> rfl
      have hstored : padName ((c :: cs).map upperChar) ((extOf s).map upperChar) 0 = upperChar c := rfl
      rw [hs, hstored, ne_eq, ne_eq, hupper]
  refine ⟨fun h => hmark.mp h.2.1, fun h => ⟨formatName_zero hn, hmark.mpr h, ?_, ?_⟩⟩
  · exact buildDisplayName_length e
  · exact formatName_display hn he

theorem formatName_storable_app :
    (padName [0x41] [0x54] 0 ≠ 0 ∧ padName [0x41] [0x54] 0 ≠ 0xE5 ∧
      (buildDisplayName (newEntry (padName [0x41] [0x54]) 0 0 0)).length ≤ 12 ∧
      formatName (buildDisplayName (newEntry (padName [0x41] [0x54]) 0 0 0)) =
        some (padName [0x41] [0x54])) ↔ CStr.at [0x61, 0x2E, 0x74] 0 ≠ 0xE5 :=
  formatName_storable_iff rfl rfl

/-- A name made of the deletion mark is accepted. -/
theorem formatName_keeps_mark : ¬ ∀ (s : CStr) (n : Name), formatName s = some n →
    n 0 ≠ 0 ∧ n 0 ≠ 0xE5 := by
  intro h
  have hn : formatName [0xE5] = some (padName [0xE5] []) := rfl
  exact (h _ _ hn).2 rfl

/-! ## The matcher against the formatter -/

/-- The matcher stops with the string: an entry with a longer extension is taken too. -/
theorem matchName_agrees_iff {name s : CStr} {n : Name} {e : DirectoryEntry} (hup : name.Upper)
    (hn : formatName name = some n) (he : formatName s = some e.name) :
    (matchName name e = true ↔ n = e.name) ↔
      ¬ (baseOf name = (baseOf s).map upperChar ∧ extOf name <+: (extOf s).map upperChar ∧
        extOf name ≠ (extOf s).map upperChar ∧ (chDot ∈ name ∨ (baseOf name).length = 8)) := by
  obtain ⟨h, rfl⟩ := formatName_eq_some.mp hn
  obtain ⟨hs, hename⟩ := formatName_eq_some.mp he
  have hmem : ∀ c ∈ baseOf name, c ∈ name := fun c hc => (List.takeWhile_subset _) hc
  have hmemExt : ∀ c ∈ extOf name, c ∈ name :=
    fun c hc => (List.dropWhile_sublist _).subset (List.mem_of_mem_tail hc)
  have hcapital : ∀ l : List Byte, (∀ c ∈ l, c ∈ name) → l.map upperChar = l := by
    intro l hl
    exact (List.map_congr_left (fun c hc => (hup c (hl c hc)).2.2)).trans (List.map_id l)
  have hsplit : (name = baseOf name ∧ extOf name = []) ∨
      name = baseOf name ++ chDot :: extOf name :=
    (name_split name).imp (fun h => ⟨h.1, h.2.1⟩) id
  have hbc : ∀ c ∈ baseOf name, c ≠ chSpace ∧ c ≠ 0 ∧ c ≠ chDot := by
    intro c hc
    refine ⟨?_, (hup c (hmem c hc)).1, ne_dot_of_mem_baseOf hc⟩
    rw [← (hup c (hmem c hc)).2.2]
    exact (h.baseChars c hc).1
  have hec : ∀ c ∈ extOf name, c ≠ chSpace ∧ c ≠ 0 := by
    intro c hc
    refine ⟨?_, (hup c (hmemExt c hc)).1⟩
    rw [← (hup c (hmemExt c hc)).2.2]
    exact (h.extChars c hc).1
  rw [matchName_iff h.notDot hsplit h.baseLength h.extLength hbc hec hename
    (by rw [List.length_map]; exact hs.baseLength) (Accepts.stored_plain hs.baseChars)
    (Accepts.stored_plain hs.extChars), hcapital _ hmem, hcapital _ hmemExt, hename]
  have hsame : padName (baseOf name) (extOf name) =
        padName ((baseOf s).map upperChar) ((extOf s).map upperChar) ↔
      baseOf name = (baseOf s).map upperChar ∧ extOf name = (extOf s).map upperChar := by
    refine ⟨fun hpad => padName_inj hpad h.baseLength ?_ h.extLength ?_ (fun c hc => (hbc c hc).1)
      (Accepts.stored_plain hs.baseChars) (fun c hc => (hec c hc).1)
      (Accepts.stored_plain hs.extChars), fun hb => by rw [hb.1, hb.2]⟩
    · rw [List.length_map]
      exact hs.baseLength
    · rw [List.length_map]
      exact hs.extLength
  rw [hsame]
  generalize (baseOf s).map upperChar = base'
  generalize (extOf s).map upperChar = ext'
  by_cases hbase : baseOf name = base'
  case neg => exact iff_of_true (iff_of_false (fun h => hbase h.1) (fun h => hbase h.1)) (fun h => hbase h.1)
  by_cases hext : extOf name = ext'
  case pos =>
    refine iff_of_true (iff_of_true ⟨hbase, hext ▸ List.prefix_rfl, ?_⟩ ⟨hbase, hext⟩) (fun h => h.2.2.1 hext)
    rcases name_split name with ⟨_, hno, _⟩ | hdot
    · exact .inr (.inr (hext ▸ hno))
    · exact .inl (hdot ▸ List.mem_append_right _ List.mem_cons_self)
  have hblank : extOf name <+: ext' → ext' ≠ [] := fun hpre hnil =>
    hext ((List.prefix_nil.mp (hnil ▸ hpre)).trans hnil.symm)
  constructor
  · rintro hiff ⟨_, hpre, _, hcase⟩
    exact hext (hiff.mp ⟨hbase, hpre, hcase.imp id .inl⟩).2
  · intro hno
    refine iff_of_false (fun h => ?_) (fun h => hext h.2)
    refine hno ⟨hbase, h.2.1, hext, ?_⟩
    exact h.2.2.imp id (fun h' => h'.resolve_right (hblank h.2.1))

/-- `A.TX` is not taken for the entry of `a.ty`. -/
theorem matchName_agrees_dotted : matchName [0x41, 0x2E, 0x54, 0x58]
      (newEntry (padName [0x41] [0x54, 0x59]) 0 0 0) = true ↔
    padName [0x41] [0x54, 0x58] = padName [0x41] [0x54, 0x59] :=
  (@matchName_agrees_iff [0x41, 0x2E, 0x54, 0x58] [0x61, 0x2E, 0x74, 0x79] (padName [0x41] [0x54, 0x58])
    (newEntry (padName [0x41] [0x54, 0x59]) 0 0 0) (by decide) rfl rfl).mpr (by decide)

/-- `A.T` is taken for `A.TXT`. -/
theorem matchName_takes_longer_extension :
    matchName [0x41, 0x2E, 0x54] (newEntry (padName [0x41] [0x54, 0x58, 0x54]) 0 0 0) = true ∧
      formatName [0x41, 0x2E, 0x54] = some (padName [0x41] [0x54]) ∧
      formatName [0x41, 0x2E, 0x54, 0x58, 0x54] = some (padName [0x41] [0x54, 0x58, 0x54]) ∧
      padName [0x41] [0x54] ≠ padName [0x41] [0x54, 0x58, 0x54] :=
  ⟨by decide, rfl, rfl, fun h => absurd (congrFun h 9) (by decide)⟩

end Fat16
end MiniDos
