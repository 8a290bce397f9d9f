import MiniDos.Lib.Orbit
import MiniDos.Shell.Complete
import Mathlib.Data.Nat.Periodic

/-!
# MiniDos.Shell.Cycle

Pressing Tab again and again. Behind the first press the word is the first name that matches, and
this is what the next press looks for: a session goes on only where that changes nothing. So the
names go round only where there is one name.
-/

namespace MiniDos
namespace Complete

open Fat16 Files Function

/-! ## Words -/

theorem isBlank_upperChar (c : Byte) : isBlank (upperChar c) = isBlank c := by
  have h : ∀ b : BitVec 8, isBlank (upperChar ⟨b⟩) = isBlank ⟨b⟩ := by decide
  exact h c.toBitVec

@[simp] theorem strToUpper_length (s : CStr) : (strToUpper s).length = s.length := List.length_map _

theorem strToUpper_strToUpper (s : CStr) : strToUpper (strToUpper s) = strToUpper s := by
  simp [strToUpper, upperChar_upperChar]

theorem strToUpper_prefix {s t : CStr} (h : s <+: t) : strToUpper s <+: strToUpper t := by
  obtain ⟨more, rfl⟩ := h
  exact ⟨strToUpper more, by simp [strToUpper]⟩

theorem lastWord_eq_self {x : List Byte} : lastWord x = x ↔ ∀ c ∈ x, isBlank c = false := by
  simp [lastWord, List.rtakeWhile_eq_self_iff]

theorem not_blank_of_mem {x : List Byte} {c : Byte} (h : c ∈ lastWord x) : isBlank c = false := by
  simpa using List.mem_rtakeWhile_imp h

/-- What stands before the last word is empty or ends with a blank. -/
@[simp] theorem lastWord_before (x : List Byte) : lastWord (before x) = [] := by
  refine List.rtakeWhile_eq_nil_iff.mpr fun hne => ?_
  exact List.rdropWhile_last_not _ x hne

theorem lastWord_append {x : List Byte} (hx : lastWord x = []) (y : List Byte) :
    lastWord (x ++ y) = lastWord y := by
  have hrev : x.reverse.takeWhile (fun c => !isBlank c) = [] := by
    simpa [lastWord, List.rtakeWhile] using hx
  simp only [lastWord, List.rtakeWhile, List.reverse_append, List.takeWhile_append, hrev,
    List.append_nil]
  split
  case isTrue h =>
    have := (List.takeWhile_prefix (fun c => !isBlank c) (l := y.reverse)).eq_of_length h
    rw [this]
  case isFalse => rfl

theorem before_append {x : List Byte} (hx : lastWord x = []) (y : List Byte) :
    before (x ++ y) = x ++ before y := by
  have h := before_append_lastWord (x ++ y)
  rw [lastWord_append hx] at h
  conv_rhs at h => rw [← before_append_lastWord y, ← List.append_assoc]
  exact List.append_cancel_right h

theorem lastWord_put (x : List Byte) {y : List Byte} (hy : ∀ c ∈ y, isBlank c = false) :
    lastWord (before x ++ y) = y := by
  rw [lastWord_append (lastWord_before x)]
  exact lastWord_eq_self.mpr hy

theorem before_put (x : List Byte) {y : List Byte} (hy : ∀ c ∈ y, isBlank c = false) :
    before (before x ++ y) = before x := by
  have h := before_append_lastWord (before x ++ y)
  rw [lastWord_put x hy] at h
  exact List.append_cancel_right h

def raise (x : List Byte) : List Byte := before x ++ strToUpper (lastWord x)

theorem not_blank_raised (x : List Byte) : ∀ c ∈ strToUpper (lastWord x), isBlank c = false := by
  intro c hc
  obtain ⟨b, hb, rfl⟩ := List.mem_map.mp hc
  rw [isBlank_upperChar]
  exact not_blank_of_mem hb

theorem raise_raise (x : List Byte) : raise (raise x) = raise x := by
  have hword := not_blank_raised x
  rw [raise, raise, lastWord_put x hword, before_put x hword, strToUpper_strToUpper]

theorem stemOf_eq {x : List Byte} (hlen : (lastWord x).length ≤ nameRoom - 1)
    (hzero : (0 : Byte) ∉ lastWord x) : stemOf x = strToUpper (lastWord x) := by
  rw [stemOf, List.take_of_length_le hlen]
  refine List.takeWhile_eq_self_iff.mpr fun c hc => ?_
  obtain ⟨b, hb, rfl⟩ := List.mem_map.mp hc
  simpa using upperChar_ne_zero fun h => hzero (h ▸ hb)

/-! ## One press -/

/-- The session goes on at a press on `x`. -/
def Session.Continues (st : Session) (x : List Byte) : Prop :=
  st.active = true ∧ st.tokenStart = (before x).length ∧ st.stem = stemOf x

section Press

variable {names : List CStr} {maxLen : Nat} {st : Session} {x : List Byte}

theorem resume_continues (h : st.Continues x) : resume st (before x).length (stemOf x) = st := by
  obtain ⟨hactive, hstart, hstem⟩ := h
  simp [resume, hactive, hstart, hstem]

theorem resume_new (h : ¬ st.Continues x) :
    resume st (before x).length (stemOf x) = ⟨true, (before x).length, 0, stemOf x⟩ := by
  unfold resume
  rw [copyRaw_stemOf]
  refine if_pos ?_
  unfold Session.Continues at h
  grind

theorem resume_spec (st : Session) (x : List Byte) :
    (resume st (before x).length (stemOf x)).Continues x := by
  by_cases h : st.Continues x
  · rw [resume_continues h]
    exact h
  · rw [resume_new h]
    exact ⟨rfl, rfl, rfl⟩

theorem resume_stem (st : Session) (x : List Byte) :
    (resume st (before x).length (stemOf x)).stem = stemOf x := (resume_spec st x).2.2

theorem pressText_none (h : matching names (stemOf x) = []) :
    pressText names maxLen st x = (.reset, x) := by
  simp [pressText, resume_stem, h]

theorem pressText_some {i : Nat} {name : CStr} (st : Session)
    (hi : (resume st (before x).length (stemOf x)).nextMatch = i)
    (hname : (matching names (stemOf x))[i]? = some name) :
    pressText names maxLen st x =
      if maxLen ≤ (before x).length + name.length then
        (resume st (before x).length (stemOf x), x)
      else
        ({ resume st (before x).length (stemOf x) with
            nextMatch := if (matching names (stemOf x)).length ≤ i + 1 then 0 else i + 1 },
          before x ++ name) := by
  have hne : matching names (stemOf x) ≠ [] := by
    intro h
    rw [h] at hname
    cases hname
  simp only [pressText, resume_stem, hne, if_false, hi, List.getD_eq_getElem?_getD, hname,
    Option.getD_some]

theorem pressText_session (names : List CStr) (maxLen : Nat) (st : Session) (x : List Byte) :
    (pressText names maxLen st x).1 = .reset ∨
      (pressText names maxLen st x).1.tokenStart = (before x).length := by
  have hstart := (resume_spec st x).2.1
  simp only [pressText]
  split
  · exact .inl rfl
  · split
    · exact .inr hstart
    · exact .inr hstart

theorem mem_matching {name stem : CStr} :
    name ∈ matching names stem ↔ name ∈ names ∧ stem <+: name := by
  simp [matching, prefixMatches]

theorem chosen_mem {l : List CStr} (h : l ≠ []) (i : Nat) : l.getD i (l.headD []) ∈ l := by
  obtain ⟨first, more, rfl⟩ := List.exists_cons_of_ne_nil h
  rw [List.getD_eq_getElem?_getD]
  cases hi : (first :: more)[i]? with
  | none => exact List.mem_cons_self
  | some name => exact List.mem_of_getElem? hi

theorem pressText_cases (names : List CStr) (maxLen : Nat) (st : Session) (x : List Byte) :
    (pressText names maxLen st x).2 = x ∨
      ∃ name ∈ names, stemOf x <+: name ∧ (pressText names maxLen st x).2 = before x ++ name := by
  simp only [pressText, resume_stem]
  split
  · exact .inl rfl
  case isFalse hne =>
    split
    · exact .inl rfl
    · obtain ⟨hmem, hpre⟩ := mem_matching.mp (chosen_mem hne _)
      exact .inr ⟨_, hmem, hpre, rfl⟩

end Press

/-! ## Presses one after the other -/

theorem tabsText_succ (names : List CStr) (maxLen : Nat) : ∀ (k : Nat) (st : Session)
    (x : List Byte), tabsText names maxLen (k + 1) st x =
      pressText names maxLen (tabsText names maxLen k st x).1 (tabsText names maxLen k st x).2 := by
  intro k
  induction k with
  | zero => exact fun st x => rfl
  | succ k ih => exact fun st x => ih _ _

/-- The names that begin with the word, upper and lower case being the same. -/
def alike (names : List CStr) (word : List Byte) : List CStr :=
  names.filter fun name => (strToUpper word).isPrefixOf (strToUpper name)

theorem mem_alike {names : List CStr} {word : List Byte} {name : CStr} :
    name ∈ alike names word ↔ name ∈ names ∧ strToUpper word <+: strToUpper name := by
  simp [alike]

/-- Round and round the names. -/
def inTurn (ms : List CStr) (k : Nat) : CStr := ms.getD (k % ms.length) []

theorem inTurn_periodic (ms : List CStr) : Periodic (inTurn ms) ms.length := by
  intro k
  simp [inTurn]

theorem inTurn_mem {ms : List CStr} (h : ms ≠ []) (k : Nat) : inTurn ms k ∈ ms := by
  have hlt : k % ms.length < ms.length := Nat.mod_lt _ (List.length_pos_iff.mpr h)
  rw [inTurn, List.getD_eq_getElem?_getD, List.getElem?_eq_getElem hlt, Option.getD_some]
  exact List.getElem_mem hlt

theorem exists_inTurn {ms : List CStr} {m : CStr} (h : m ∈ ms) : ∃ k, inTurn ms k = m := by
  obtain ⟨k, hk, rfl⟩ := List.mem_iff_getElem.mp h
  refine ⟨k, ?_⟩
  rw [inTurn, Nat.mod_eq_of_lt hk, List.getD_eq_getElem?_getD, List.getElem?_eq_getElem hk,
    Option.getD_some]

/-- The names that a session on `x` goes through, up to the first one that there is no room for. -/
def gone (names : List CStr) (maxLen : Nat) (x : List Byte) : List CStr :=
  (matching names (stemOf x)).takeWhile fun name =>
    decide ((before x).length + name.length < maxLen)

/-- What has completion stand still on `m`: every name that matches the word is `m`, the first press
finds it or it stands there already, and the last word of `m` leads to nothing else. -/
structure Steady (names : List CStr) (maxLen : Nat) (x : List Byte) (m : CStr) : Prop where
  all : ∀ name ∈ alike names (lastWord x), name = m
  first : strToUpper (lastWord x) <+: m ∨ lastWord x = m
  word : ∀ name ∈ gone names maxLen (before x ++ m), name = lastWord m

section Names

variable {names : List CStr} {maxLen : Nat} {x : List Byte}
  (hnames : ∀ name ∈ names, name.length ≤ nameRoom - 1 ∧ (0 : Byte) ∉ name)

include hnames

theorem stemOf_alike {name : CStr} (h : name ∈ alike names (lastWord x)) :
    stemOf x = strToUpper (lastWord x) := by
  obtain ⟨hmem, hpre⟩ := mem_alike.mp h
  obtain ⟨hlen, hzero⟩ := hnames name hmem
  have hle := hpre.length_le
  simp only [strToUpper_length] at hle
  refine stemOf_eq (Nat.le_trans hle hlen) fun h0 => ?_
  have h0 : (0 : Byte) ∈ strToUpper name := by
    refine hpre.subset ?_
    exact List.mem_map.mpr ⟨0, h0, by decide⟩
  obtain ⟨c, hc, hup⟩ := List.mem_map.mp h0
  exact upperChar_ne_zero (fun hc0 => hzero (hc0 ▸ hc)) hup

theorem stemOf_placed {name : CStr} (hmem : name ∈ names) :
    stemOf (before x ++ name) = strToUpper (lastWord name) := by
  obtain ⟨hlen, hzero⟩ := hnames name hmem
  have hword : lastWord (before x ++ name) = lastWord name :=
    lastWord_append (lastWord_before x) name
  rw [← hword]
  have hsuffix : lastWord name <:+ name := List.rtakeWhile_suffix _ _
  refine stemOf_eq ?_ ?_
  · rw [hword]
    exact Nat.le_trans hsuffix.length_le hlen
  · rw [hword]
    exact fun h0 => hzero (hsuffix.subset h0)

/-! ## Turns that come true -/

section Turns

variable (hne : alike names (lastWord x) ≠ [])
  (hturn : ∀ k, (tabsText names maxLen (k + 1) .reset x).2 =
    before x ++ inTurn (alike names (lastWord x)) k)

include hne hturn

theorem turn_cases (k : Nat) :
    inTurn (alike names (lastWord x)) (k + 1) = inTurn (alike names (lastWord x)) k ∨
      ∃ name, strToUpper (lastWord (inTurn (alike names (lastWord x)) k)) <+: name ∧
        inTurn (alike names (lastWord x)) (k + 1) =
          before (inTurn (alike names (lastWord x)) k) ++ name := by
  have hnext := hturn (k + 1)
  rw [tabsText_succ, hturn k] at hnext
  have hmem := (mem_alike.mp (inTurn_mem hne k)).1
  obtain h | ⟨name, -, hpre, h⟩ := pressText_cases names maxLen
    (tabsText names maxLen (k + 1) .reset x).1 (before x ++ inTurn (alike names (lastWord x)) k)
  · rw [h] at hnext
    exact .inl (List.append_cancel_left hnext).symm
  · rw [h, before_append (lastWord_before x), List.append_assoc] at hnext
    rw [stemOf_placed hnames hmem] at hpre
    exact .inr ⟨name, hpre, (List.append_cancel_left hnext).symm⟩

theorem turn_raises (k : Nat) :
    inTurn (alike names (lastWord x)) (k + 1) = inTurn (alike names (lastWord x)) k ∨
      inTurn (alike names (lastWord x)) (k + 1) = raise (inTurn (alike names (lastWord x)) k) := by
  have hpos := List.length_pos_iff.mpr hne
  have hsplit : ∀ y : List Byte, y.length = (before y).length + (lastWord y).length := by
    intro y
    conv_lhs => rw [← before_append_lastWord y]
    rw [List.length_append]
  have hlen : (inTurn (alike names (lastWord x)) (k + 1)).length =
      (inTurn (alike names (lastWord x)) k).length := by
    have hper : Periodic (fun k => (inTurn (alike names (lastWord x)) k).length)
        (alike names (lastWord x)).length := by
      intro k
      simp only [inTurn_periodic _ k]
    refine Cycle.constant_of_le hper hpos (fun k => ?_) (k + 1) k
    obtain h | ⟨name, hpre, h⟩ := turn_cases hnames hne hturn k
    · exact Nat.le_of_eq (congrArg List.length h).symm
    · have hle := hpre.length_le
      rw [strToUpper_length] at hle
      simp only [h, List.length_append]
      rw [hsplit (inTurn _ k)]
      omega
  obtain h | ⟨name, hpre, h⟩ := turn_cases hnames hne hturn k
  · exact .inl h
  · refine .inr ?_
    rw [h, List.length_append, hsplit (inTurn (alike names (lastWord x)) k)] at hlen
    rw [h, raise, hpre.eq_of_length (by rw [strToUpper_length]; omega)]

theorem turns_same {name : CStr} (h : name ∈ alike names (lastWord x)) :
    name = inTurn (alike names (lastWord x)) 0 := by
  obtain ⟨k, rfl⟩ := exists_inTurn h
  exact Cycle.constant_of_settles raise_raise (inTurn_periodic _) (List.length_pos_iff.mpr hne)
    (turn_raises hnames hne hturn) k

end Turns

end Names

/-! ## Names that are gone through -/

section Gone

variable {names : List CStr} {maxLen : Nat} {x : List Byte}

theorem takeWhile_getElem? {α : Type} {p : α → Bool} {l : List α} : ∀ {i : Nat} {a : α},
    i ≤ (l.takeWhile p).length → l[i]? = some a → p a = true → (l.takeWhile p)[i]? = some a := by
  induction l with
  | nil => exact fun _ h _ => (nomatch h)
  | cons b l ih =>
    intro i a hi h ha
    cases i with
    | zero =>
      simp only [List.getElem?_cons_zero, Option.some.injEq] at h
      simp [h, ha]
    | succ i =>
      by_cases hb : p b = true
      · rw [List.takeWhile_cons_of_pos hb] at hi ⊢
        exact ih (Nat.le_of_succ_le_succ hi) h ha
      · rw [List.takeWhile_cons_of_neg hb] at hi
        cases hi

theorem gone_getElem? {i : Nat} {name : CStr} (h : (gone names maxLen x)[i]? = some name) :
    (matching names (stemOf x))[i]? = some name ∧ (before x).length + name.length < maxLen := by
  obtain ⟨hi, rfl⟩ := List.getElem?_eq_some_iff.mp h
  refine ⟨?_, by simpa using List.mem_takeWhile_imp (List.getElem_mem hi)⟩
  have hpre : gone names maxLen x <+: matching names (stemOf x) := List.takeWhile_prefix _
  rw [hpre.getElem hi]
  exact List.getElem?_eq_getElem (Nat.lt_of_lt_of_le hi hpre.length_le)

theorem gone_of_getElem? {i : Nat} {name : CStr} (hi : i ≤ (gone names maxLen x).length)
    (h : (matching names (stemOf x))[i]? = some name)
    (hfits : (before x).length + name.length < maxLen) : (gone names maxLen x)[i]? = some name := by
  exact takeWhile_getElem? hi h (by simpa using hfits)

/-- A session at `x` has shown only names that are gone through, and has one to show. -/
def Session.Within (names : List CStr) (maxLen : Nat) (x : List Byte) (st : Session) : Prop :=
  st.Continues x → st.nextMatch < (matching names (stemOf x)).length ∧
    st.nextMatch ≤ (gone names maxLen x).length

theorem within_reset : Session.reset.Within names maxLen x := fun h => (nomatch h.1)

theorem pressText_still (h : ∀ name ∈ gone names maxLen x, name = lastWord x) {st : Session}
    (hst : st.Within names maxLen x) : (pressText names maxLen st x).2 = x ∧
      (pressText names maxLen st x).1.Within names maxLen x := by
  by_cases hnone : matching names (stemOf x) = []
  · rw [pressText_none hnone]
    exact ⟨rfl, within_reset⟩
  · have hpos := List.length_pos_iff.mpr hnone
    have hnext : (resume st (before x).length (stemOf x)).nextMatch <
        (matching names (stemOf x)).length ∧
        (resume st (before x).length (stemOf x)).nextMatch ≤ (gone names maxLen x).length := by
      by_cases hc : st.Continues x
      · rw [resume_continues hc]
        exact hst hc
      · rw [resume_new hc]
        exact ⟨hpos, Nat.zero_le _⟩
    obtain ⟨hlt, hle⟩ := hnext
    have hname := List.getElem?_eq_getElem hlt
    rw [pressText_some st rfl hname]
    split
    case isTrue => exact ⟨rfl, fun _ => ⟨hlt, hle⟩⟩
    case isFalse hfits =>
      have hgone := gone_of_getElem? hle hname (by omega)
      have hword := h _ (List.mem_of_getElem? hgone)
      obtain ⟨hlt', -⟩ := List.getElem?_eq_some_iff.mp hgone
      rw [hword]
      refine ⟨before_append_lastWord x, fun _ => ?_⟩
      simp only
      split <;> omega

theorem tabsText_still (h : ∀ name ∈ gone names maxLen x, name = lastWord x) : ∀ (k : Nat)
    (st : Session), st.Within names maxLen x → (tabsText names maxLen k st x).2 = x := by
  intro k
  induction k with
  | zero => exact fun st _ => rfl
  | succ k ih =>
    intro st hst
    obtain ⟨htext, hwithin⟩ := pressText_still h hst
    simp only [tabsText]
    rw [htext]
    exact ih _ hwithin

theorem tabsText_goes {st : Session} (hnew : ¬ st.Continues x)
    (hstill : ∀ k, (tabsText names maxLen k st x).2 = x) : ∀ i : Nat,
      i < (gone names maxLen x).length →
        resume (tabsText names maxLen i st x).1 (before x).length (stemOf x) =
          ⟨true, (before x).length, i, stemOf x⟩ := by
  intro i
  induction i with
  | zero => exact fun _ => resume_new hnew
  | succ i ih =>
    intro hi
    have hprev := ih (by omega)
    have hat : (gone names maxLen x)[i]? = some (gone names maxLen x)[i] :=
      List.getElem?_eq_getElem (by omega)
    obtain ⟨hname, hfits⟩ := gone_getElem? hat
    have hle : (gone names maxLen x).length ≤ (matching names (stemOf x)).length :=
      (List.takeWhile_prefix _).length_le
    have hstep : (tabsText names maxLen (i + 1) st x).1 =
        ⟨true, (before x).length, i + 1, stemOf x⟩ := by
      have hnext : (resume (tabsText names maxLen i st x).1 (before x).length
          (stemOf x)).nextMatch = i := congrArg Session.nextMatch hprev
      rw [tabsText_succ, hstill i, pressText_some _ hnext hname, if_neg (by omega), hprev,
        if_neg (by omega)]
    rw [hstep]
    exact resume_continues ⟨rfl, rfl, rfl⟩

theorem gone_of_still {st : Session} (hnew : ¬ st.Continues x)
    (hstill : ∀ k, (tabsText names maxLen k st x).2 = x) :
    ∀ name ∈ gone names maxLen x, name = lastWord x := by
  intro name hmem
  obtain ⟨i, hi, rfl⟩ := List.mem_iff_getElem.mp hmem
  obtain ⟨hname, hfits⟩ := gone_getElem? (List.getElem?_eq_getElem hi)
  have hnext := congrArg Session.nextMatch (tabsText_goes hnew hstill i hi)
  have hshown := hstill (i + 1)
  rw [tabsText_succ, hstill i, pressText_some _ hnext hname, if_neg (by omega)] at hshown
  refine List.append_cancel_left (hshown.trans ?_)
  exact (before_append_lastWord x).symm

end Gone

/-! ## When the names go round -/

section Cycles

variable {names : List CStr} {maxLen : Nat} {x : List Byte}
  (hnames : ∀ name ∈ names, name.length ≤ nameRoom - 1 ∧ (0 : Byte) ∉ name)
  (hne : alike names (lastWord x) ≠ [])

include hnames hne

/-- Turns that come true leave the last word of the name as it is. -/
theorem gone_of_turns
    (hturn : ∀ k, (tabsText names maxLen (k + 1) .reset x).2 =
      before x ++ inTurn (alike names (lastWord x)) k) :
    ∀ name ∈ gone names maxLen (before x ++ inTurn (alike names (lastWord x)) 0),
      name = lastWord (inTurn (alike names (lastWord x)) 0) := by
  have hsame : ∀ k, inTurn (alike names (lastWord x)) k = inTurn (alike names (lastWord x)) 0 :=
    fun k => turns_same hnames hne hturn (inTurn_mem hne k)
  have hmem := inTurn_mem hne 0
  generalize hm : inTurn (alike names (lastWord x)) 0 = m at *
  have hword : lastWord (before x ++ m) = lastWord m := lastWord_append (lastWord_before x) m
  have hstem : stemOf (before x ++ m) = strToUpper (lastWord m) :=
    stemOf_placed hnames (mem_alike.mp hmem).1
  by_cases hblank : before m = []
  · -- a name without blanks: what begins with it begins with the word, so it is one of the names
    have hm' : lastWord m = m := by
      have := before_append_lastWord m
      rwa [hblank, List.nil_append] at this
    intro name hname
    obtain ⟨hin, hpre⟩ := mem_matching.mp ((List.takeWhile_prefix _).subset hname)
    rw [hstem, hm'] at hpre
    have hword := strToUpper_prefix ((mem_alike.mp hmem).2.trans hpre)
    rw [strToUpper_strToUpper] at hword
    rw [hm', turns_same hnames hne hturn (mem_alike.mpr ⟨hin, hword⟩), hm]
  · -- the session of the second press is a new one, about the last word of the name
    rw [← hword]
    have hfirst : (pressText names maxLen .reset x).2 = before x ++ m := by
      rw [← hm]
      exact hturn 0
    refine gone_of_still (?_ : ¬ Session.Continues (pressText names maxLen .reset x).1 _) fun k => ?_
    · rintro ⟨hactive, hstart, -⟩
      rw [before_append (lastWord_before x), List.length_append] at hstart
      have hpos := List.length_pos_iff.mpr hblank
      obtain h | h := pressText_session names maxLen .reset x
      · rw [h] at hactive
        cases hactive
      · omega
    · have h := hturn k
      rw [hsame k, tabsText, hfirst] at h
      exact h

/-- The presses go round the names exactly when completion stands still on one name. -/
theorem tabsText_turns_iff
    (hfits : ∀ name ∈ alike names (lastWord x), (before x).length + name.length < maxLen) :
    (∀ k, (tabsText names maxLen (k + 1) .reset x).2 =
      before x ++ inTurn (alike names (lastWord x)) k) ↔
    ∃ m, Steady names maxLen x m := by
  constructor
  · intro hturn
    refine ⟨inTurn (alike names (lastWord x)) 0, ?_, ?_, gone_of_turns hnames hne hturn⟩
    · exact fun name h => turns_same hnames hne hturn h
    · have hfirst := hturn 0
      obtain h | ⟨name, -, hpre, h⟩ := pressText_cases names maxLen .reset x
      · have h : before x ++ lastWord x = before x ++ inTurn (alike names (lastWord x)) 0 := by
          rw [before_append_lastWord]
          exact h.symm.trans hfirst
        exact .inr (List.append_cancel_left h)
      · have h : name = inTurn (alike names (lastWord x)) 0 :=
          List.append_cancel_left (h.symm.trans hfirst)
        rw [stemOf_alike hnames (inTurn_mem hne 0), h] at hpre
        exact .inl hpre
  · rintro ⟨m, hall, hfirst, hgone⟩ k
    have hmem : m ∈ alike names (lastWord x) := by
      obtain ⟨name, more, h⟩ := List.exists_cons_of_ne_nil hne
      have hin : name ∈ alike names (lastWord x) := h ▸ List.mem_cons_self
      exact hall name hin ▸ hin
    have hword : lastWord (before x ++ m) = lastWord m := lastWord_append (lastWord_before x) m
    rw [← hword] at hgone
    rw [hall _ (inTurn_mem hne k)]
    obtain hpre | rfl := hfirst
    · -- the first press puts the name there
      have hstem : stemOf x = strToUpper (lastWord x) := stemOf_alike hnames hmem
      have hin : m ∈ matching names (stemOf x) := by
        rw [hstem]
        exact mem_matching.mpr ⟨(mem_alike.mp hmem).1, hpre⟩
      have honly : ∀ name ∈ matching names (stemOf x), name = m := by
        intro name hname
        obtain ⟨hin, hpre⟩ := mem_matching.mp hname
        rw [hstem] at hpre
        have hword := strToUpper_prefix hpre
        rw [strToUpper_strToUpper] at hword
        exact hall name (mem_alike.mpr ⟨hin, hword⟩)
      have hpos := List.length_pos_of_mem hin
      have hfirst : (matching names (stemOf x))[0]? = some m := by
        rw [List.getElem?_eq_getElem hpos, honly _ (List.getElem_mem hpos)]
      have hnew : resume .reset (before x).length (stemOf x) =
          ⟨true, (before x).length, 0, stemOf x⟩ := resume_new fun h => (nomatch h.1)
      have hroom := hfits m hmem
      have hpress : pressText names maxLen .reset x = _ :=
        pressText_some .reset (congrArg Session.nextMatch hnew) hfirst
      rw [if_neg (by omega), hnew] at hpress
      rw [tabsText, hpress]
      refine tabsText_still hgone k _ fun hc => ?_
      have hstart : (before x).length = (before (before x ++ m)).length := hc.2.1
      have hsame : stemOf x = stemOf (before x ++ m) := hc.2.2
      have hshown := gone_of_getElem? (Nat.zero_le (gone names maxLen (before x ++ m)).length)
        (hsame ▸ hfirst) (hstart ▸ hroom)
      obtain ⟨hlt, -⟩ := List.getElem?_eq_some_iff.mp hshown
      rw [← hsame]
      simp only
      split <;> omega
    · rw [before_append_lastWord] at hgone ⊢
      exact tabsText_still hgone (k + 1) .reset within_reset

end Cycles

/-! ## At the prompt -/

section Volume

open BlockIO

variable {g : Globals} {dir fuel n maxLen : Nat} {l : List Nat} {m : DriverMem} {line : Line}

/-- A press keeps the line in its buffer, whatever the disk holds. In a directory of a well-formed
volume presses of Tab come back, and they put the names that match in place of the word, in turn,
exactly when completion stands still on one name. -/
theorem tabs_turns_iff (hg : g.Valid) (hw : WellFormed g m.disk) (hdir : IsDir g m.disk dir)
    (hl : Chained g m.disk dir l) (hfuel : g.getTotalClusters ≤ fuel)
    (hn : (listing m.disk (dirSlots g dir l)).length < n) (hmax : 1 < maxLen)
    (hlen : line.len < maxLen)
    (hne : alike (listing m.disk (dirSlots g dir l)) (lastWord line.text) ≠ [])
    (hfits : ∀ name ∈ alike (listing m.disk (dirSlots g dir l)) (lastWord line.text),
      (before line.text).length + name.length < maxLen) :
    (∀ fails ready st m₁ r m₂, (autocompleteApply g fuel dir n ready maxLen st line).run fails m₁ =
      some (r, m₂) → Kept maxLen line r.2.2) ∧
    (∀ k, ∃ r m', (tabs g fuel dir n maxLen k .reset line).run noFaults m = some (r, m') ∧
      m'.disk = m.disk ∧ Kept maxLen line r.2) ∧
    ((∀ k, ∃ r m', (tabs g fuel dir n maxLen (k + 1) .reset line).run noFaults m = some (r, m') ∧
        r.2.text = before line.text ++
          inTurn (alike (listing m.disk (dirSlots g dir l)) (lastWord line.text)) k) ↔
      ∃ name, Steady (listing m.disk (dirSlots g dir l)) maxLen line.text name) := by
  have hok : DirOk g m.disk dir l := ⟨hl, hw.endMarked dir l hdir hl⟩
  have hruns : ∀ k, ∃ r m', (tabs g fuel dir n maxLen k .reset line).run noFaults m =
      some (r, m') ∧ m'.disk = m.disk ∧ Kept maxLen line r.2 ∧
        (r.1, r.2.text) = tabsText (listing m.disk (dirSlots g dir l)) maxLen k .reset line.text :=
    fun k => Prog.exists_run (wp_tabs hg (Ctx.total_not_faulty (fun _ => True)) hok hfuel hn hmax k
      .reset line m hlen rfl)
  refine ⟨?_, ?_, ?_⟩
  · intro fails ready st m₁ r m₂ hrun
    exact (Prog.run_of_wp fails (fun _ _ => trivial)
      (autocompleteApply_kept g fuel dir n ready st hlen m₁)).1 r m₂ hrun
  · intro k
    obtain ⟨r, m', hrun, hdisk, hk, -⟩ := hruns k
    exact ⟨r, m', hrun, hdisk, hk⟩
  · rw [← tabsText_turns_iff (fun name h => ⟨listing_length_le h, listing_not_zero h⟩) hne hfits]
    refine forall_congr' fun k => ?_
    obtain ⟨r, m', hrun, -, -, hr⟩ := hruns (k + 1)
    rw [← hr]
    constructor
    · rintro ⟨r', m'', hrun', h⟩
      rw [hrun] at hrun'
      cases hrun'
      exact h
    · exact fun h => ⟨r, m', hrun, h⟩

end Volume

def typed (s : CStr) : Line := ⟨fun i => s.getD i 0, s.length⟩

/-- `A.TXT` and `A.T` are the files of the directory; from `A.TX` on there is only the first, and
the second press shows it again. -/
theorem tabs_turns_one : ∃ r m',
    (tabs smallVolume 3 0 3 64 2 .reset (typed [0x41, 0x2E, 0x54, 0x58])).run
      BlockIO.noFaults prefixMem = some (r, m') ∧
    r.2.text = before (typed [0x41, 0x2E, 0x54, 0x58]).text ++
      inTurn (alike (listing prefixMem.disk (dirSlots smallVolume 0 []))
        (lastWord (typed [0x41, 0x2E, 0x54, 0x58]).text)) 1 := by
  refine (tabs_turns_iff smallVolume_valid prefixMem_wellFormed .root (.inl ⟨rfl, rfl⟩) (by decide)
    (by decide +kernel) (by decide) (by decide) (by decide +kernel) (by decide +kernel)).2.2.mpr
    ⟨[0x41, 0x2E, 0x54, 0x58, 0x54], by decide +kernel, by decide +kernel, by decide +kernel⟩ 1

/-- From `A` on it is `A.T` that the second press is to show, and it shows `A.TXT` again. -/
theorem second_press_repeats :
    alike (listing prefixMem.disk (dirSlots smallVolume 0 [])) [0x41] =
        [[0x41, 0x2E, 0x54, 0x58, 0x54], [0x41, 0x2E, 0x54]] ∧
      (∃ r m', (tabs smallVolume 3 0 3 64 2 .reset (typed [0x41])).run BlockIO.noFaults prefixMem =
        some (r, m') ∧ r.2.text = [0x41, 0x2E, 0x54, 0x58, 0x54]) ∧
      ¬ ∀ k, ∃ r m', (tabs smallVolume 3 0 3 64 (k + 1) .reset (typed [0x41])).run
        BlockIO.noFaults prefixMem = some (r, m') ∧
        r.2.text = before (typed [0x41]).text ++
          inTurn (alike (listing prefixMem.disk (dirSlots smallVolume 0 []))
            (lastWord (typed [0x41]).text)) k := by
  have hrun : ((tabs smallVolume 3 0 3 64 2 .reset (typed [0x41])).run BlockIO.noFaults
      prefixMem).map (fun x => x.1.2.text) = some [0x41, 0x2E, 0x54, 0x58, 0x54] := by
    decide +kernel
  obtain ⟨⟨r, m'⟩, hr, htext⟩ := Option.map_eq_some_iff.mp hrun
  refine ⟨by decide +kernel, ⟨r, m', hr, htext⟩, fun h => ?_⟩
  obtain ⟨r', m'', hr', htext'⟩ := h 1
  rw [hr] at hr'
  cases hr'
  rw [htext] at htext'
  exact absurd htext' (by decide +kernel)

end Complete
end MiniDos
