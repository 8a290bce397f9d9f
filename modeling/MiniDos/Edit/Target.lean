import MiniDos.Edit.Keys
import MiniDos.Files.Places

/-!
# MiniDos.Edit.Target

Where the editor saves. It remembers the name of its document, and the task has the directory.

* `logged`: the reads and writes of a run, each with the directory that the task was in.
* `Aimed`: a document that is not new is named, and the task is in the directory that it came from or
  went to.
* `Returns`: a file dialog that is left without a document leaves the task in that directory.
  `save_target` holds for the runs that meet it.
-/

namespace MiniDos
namespace Edit

open BlockIO Fat16 Files

/-! ## The calls of a run -/

/-- A read or a write: the directory and the name, and whether it succeeded. -/
structure FileCall (P : Type) where
  writes : Bool
  target : P × CStr
  ok : Bool

section Logged

variable {W P : Type} (api : FileApi W) (place : W → P)

def note (call : FileCall P) : Action (W × List (FileCall P)) Unit :=
  Action.modify (fun s => (s.1, call :: s.2))

/-- The calls over a world that keeps the reads and writes, the last one first. -/
def logged : FileApi (W × List (FileCall P)) where
  chdir name := (api.chdir name).onFst
  listEntry i := (api.listEntry i).onFst
  fileRead name max := do
    let s ← Action.get
    let bytes ← (api.fileRead name max).onFst
    note ⟨false, (place s.1, name), bytes.isSome⟩
    pure bytes
  fileWrite name bytes := do
    let s ← Action.get
    let ok ← (api.fileWrite name bytes).onFst
    note ⟨true, (place s.1, name), ok⟩
    pure ok

end Logged

/-- Where the last call went that succeeded: the document was opened there, or saved. -/
def lastTarget {P : Type} (calls : List (FileCall P)) : Option (P × CStr) :=
  (calls.find? FileCall.ok).map FileCall.target

section Target

variable {W P : Type} (api : FileApi W) (place : W → P)

abbrev Session (W P : Type) : Type := Editor × W × List (FileCall P)

def Fails (purpose : FilePurpose) (fileName : CStr) (e : Editor) (w : W) : Prop :=
  match purpose with
  | .openFile => ∃ w', api.fileRead fileName editMaxFileBytes w = some (none, w')
  | _ => ∃ w', api.fileWrite fileName (exported e) w = some (false, w')

/-- A file dialog that is left without a document, while the one shown is not new, leaves the task in
the directory of that document. -/
def Returns (s : Session W P) (c : UInt8) : Prop :=
  ∀ purpose d, s.1.phase = .fileDialog purpose d → s.1.isNewFile = false →
    (c = keyEscape ∨ ∃ fileName, chosenName c purpose d = some fileName ∧ Fails api purpose fileName s.1 s.2.1) →
    ∀ t, lastTarget s.2.2 = some t → t.1 = place s.2.1

/-- The choice of `Save`, and the save of the dialog on exit. -/
def Saves (e : Editor) (c : UInt8) : Prop :=
  (e.phase = .editing ∧ e.menuMode = true ∧ e.menuIndex = 0 ∧ e.menuItem = 2 ∧ isEnter c = true) ∨
    e.phase = .unsavedDialog ∧ (c = 0x73 ∨ c = 0x53)

/-- A save of a document that is not new writes where it was last opened or saved. -/
def SavesThere (s : Session W P) : Prop :=
  ∀ c s', Saves s.1 c → s.1.isNewFile = false → step (logged api place) s c = some s' →
    ∃ t ok, lastTarget s.2.2 = some t ∧ s'.2.2 = ⟨true, t, ok⟩ :: s.2.2

/-- A document that is not new came from the directory that the task is in, or went there. -/
structure Pointed (e : Editor) (w : W) (calls : List (FileCall P)) : Prop where
  hasCurrentFile : e.hasCurrentFile = true
  there : e.isNewFile = false → lastTarget calls = some (place w, e.currentFile)

def NoDialog (e : Editor) : Prop := ∀ purpose d, e.phase ≠ .fileDialog purpose d

/-- In a file dialog the directory is not that of the document. -/
structure Aimed (s : Session W P) : Prop where
  hasCurrentFile : s.1.hasCurrentFile = true
  named : s.1.isNewFile = false → ∃ p, lastTarget s.2.2 = some (p, s.1.currentFile)
  pointed : NoDialog s.1 → Pointed place s.1 s.2.1 s.2.2

end Target

section Calls

variable {W P : Type} {api : FileApi W} {place : W → P} {w : W} {calls : List (FileCall P)}

@[simp] theorem lastTarget_ok {p : P × CStr} {writes : Bool} :
    lastTarget (⟨writes, p, true⟩ :: calls) = some p := rfl

@[simp] theorem lastTarget_failed {p : P × CStr} {writes : Bool} :
    lastTarget (⟨writes, p, false⟩ :: calls) = lastTarget calls := rfl

theorem wp_logged_read (hstays : api.Stays place) (name : CStr) (max : Nat) :
    ((logged api place).fileRead name max).wp (fun bytes s =>
      s.2 = ⟨false, (place w, name), bytes.isSome⟩ :: calls ∧ place s.1 = place w ∧
        api.fileRead name max w = some (bytes, s.1)) (w, calls) := by
  simp only [logged, note, Action.wp_bind, Action.wp_get, Action.wp_onFst, Action.wp_modify, Action.wp_pure]
  intro bytes w' hread
  exact ⟨trivial, hstays.fileRead name max w bytes w' hread, hread⟩

theorem wp_logged_write (hstays : api.Stays place) (name : CStr) (bytes : List UInt8) :
    ((logged api place).fileWrite name bytes).wp (fun ok s =>
      s.2 = ⟨true, (place w, name), ok⟩ :: calls ∧ place s.1 = place w ∧
        api.fileWrite name bytes w = some (ok, s.1)) (w, calls) := by
  simp only [logged, note, Action.wp_bind, Action.wp_get, Action.wp_onFst, Action.wp_modify, Action.wp_pure]
  intro ok w' hwrite
  exact ⟨trivial, hstays.fileWrite name bytes w ok w' hwrite, hwrite⟩

/-- A computation that neither reads nor writes files. -/
def Silent {α : Type} (p : Action (W × List (FileCall P)) α) : Prop := ∀ s, p.wp (fun _ s' => s'.2 = s.2) s

theorem Silent.pure {α : Type} (a : α) : Silent (P := P) (W := W) (pure a) := fun s => by simp

theorem Silent.bind {α β : Type} {p : Action (W × List (FileCall P)) α}
    {f : α → Action (W × List (FileCall P)) β} (hp : Silent p) (hf : ∀ a, Silent (f a)) :
    Silent (p >>= f) := by
  intro s
  rw [Action.wp_bind]
  refine Action.wp_mono (hp s) (fun a s₁ h₁ => Action.wp_mono (hf a s₁) (fun b s₂ h₂ => h₂.trans h₁))

theorem Silent.ite {α : Type} {c : Prop} [Decidable c] {p q : Action (W × List (FileCall P)) α}
    (hp : Silent p) (hq : Silent q) : Silent (if c then p else q) := by
  split
  · exact hp
  · exact hq

theorem silent_chdir (name : CStr) : Silent ((logged api place).chdir name) := by
  intro s
  simp only [logged, Action.wp_onFst]
  exact fun _ _ _ => trivial

theorem silent_listEntry (i : Nat) : Silent ((logged api place).listEntry i) := by
  intro s
  simp only [logged, Action.wp_onFst]
  exact fun _ _ _ => trivial

theorem silent_goRoot (n : Nat) : Silent (goRoot (logged api place) n) := by
  induction n with
  | zero => exact .pure ()
  | succ n ih =>
    rw [goRoot]
    exact .bind (silent_chdir dotDot) (fun ok => .ite ih (.pure ()))

theorem silent_loadDialogEntries (n : Nat) (entries : List (CStr × Bool)) :
    Silent (loadDialogEntries (logged api place) n entries) := by
  induction n generalizing entries with
  | zero => exact .pure entries
  | succ n ih =>
    rw [loadDialogEntries]
    refine .bind (silent_listEntry entries.length) (fun found => ?_)
    cases found with
    | none => exact .pure entries
    | some entry => exact ih _

theorem silent_reload (d : FileDialog) : Silent (reload (logged api place) d) :=
  .bind (silent_loadDialogEntries _ []) (fun _ => .pure _)

theorem silent_dialogKey (c : UInt8) (purpose : FilePurpose) (d : FileDialog) :
    Silent (dialogKey (logged api place) c purpose d) := by
  have hgo : ∀ (d : FileDialog) (name : CStr), Silent (do
      let ok ← (logged api place).chdir name
      if ok then do
        let d ← reload (logged api place) d
        pure (DialogReply.stay d)
      else pure (DialogReply.stay d)) :=
    fun d name => .bind (silent_chdir name)
      (fun ok => .ite (.bind (silent_reload d) (fun _ => .pure _)) (.pure _))
  rw [dialogKey]
  refine .ite ?_ (.ite ?_ (.ite (.pure _) (.pure _)))
  · rw [dialogUp]
    exact .ite (.pure _) (hgo _ dotDot)
  · rw [dialogEnter]
    refine .ite (.pure _) ?_
    split
    · exact .pure _
    · exact .ite (hgo _ _) (.pure _)

end Calls

/-! ## Keys -/

section Keys

variable {W P : Type} {api : FileApi W} {place : W → P} {w w' : W} {calls calls' : List (FileCall P)}
  {e e' : Editor} {c : UInt8}

/-- Fields of the document that editing leaves. -/
structure SameFile (e e' : Editor) : Prop where
  currentFile : e'.currentFile = e.currentFile
  hasCurrentFile : e'.hasCurrentFile = e.hasCurrentFile
  isNewFile : e'.isNewFile = e.isNewFile

theorem SameFile.refl (e : Editor) : SameFile e e := ⟨rfl, rfl, rfl⟩

theorem SameFile.trans {e₁ : Editor} (h : SameFile e e₁) (h' : SameFile e₁ e') : SameFile e e' :=
  ⟨h'.1.trans h.1, h'.2.trans h.2, h'.3.trans h.3⟩

theorem Pointed.congr (h : Pointed place e w calls) (hsame : SameFile e e') : Pointed place e' w calls := by
  refine ⟨hsame.hasCurrentFile.trans h.hasCurrentFile, ?_⟩
  rw [hsame.isNewFile, hsame.currentFile]
  exact h.there

theorem Pointed.aimed (h : Pointed place e w calls) : Aimed place (e, w, calls) :=
  ⟨h.hasCurrentFile, fun hnew => ⟨_, h.there hnew⟩, fun _ => h⟩

theorem Aimed.edit (h : Aimed place (e, w, calls)) (hphase : NoDialog e) (hsame : SameFile e e') :
    Aimed place (e', w, calls) :=
  ((h.pointed hphase).congr hsame).aimed

theorem Aimed.dialog (h : Aimed place (e, w, calls)) (hsame : SameFile e e') {purpose : FilePurpose}
    {d : FileDialog} (hdialog : e'.phase = .fileDialog purpose d) : Aimed place (e', w', calls) := by
  refine ⟨hsame.hasCurrentFile.trans h.hasCurrentFile, fun hnew => ?_, fun hphase => absurd hdialog (hphase _ _)⟩
  obtain ⟨p, hp⟩ := h.named (hsame.isNewFile.symm.trans hnew)
  exact ⟨p, hsame.currentFile ▸ hp⟩

theorem aimed_openFileDialog (h : Aimed place (e, w, calls)) (purpose : FilePurpose) (hsame : SameFile e e') :
    (openFileDialog (logged api place) purpose e').wp (fun e₁ s => Aimed place (e₁, s)) (w, calls) := by
  rw [openFileDialog, Action.wp_bind]
  refine Action.wp_mono (silent_goRoot 32 (w, calls)) ?_
  rintro _ ⟨w₁, calls₁⟩ rfl
  rw [Action.wp_bind]
  refine Action.wp_mono (silent_loadDialogEntries _ [] (w₁, calls₁)) ?_
  rintro entries ⟨w₂, calls₂⟩ rfl
  exact (Action.wp_pure _).mpr (h.dialog ⟨hsame.1, hsame.2, hsame.3⟩ rfl)

theorem aimed_write (hstays : api.Stays place) (h : Aimed place (e, w, calls)) (hphase : NoDialog e)
    (hsame : SameFile e e') {saved failed : Editor} (hsaved : saved.currentFile = e'.currentFile ∧
      saved.hasCurrentFile = e'.hasCurrentFile) (hfailed : SameFile e' failed) (bytes : List UInt8) : (do
      let ok ← (logged api place).fileWrite e'.currentFile bytes
      if ok then pure saved else pure failed).wp (fun e₁ s => Aimed place (e₁, s)) (w, calls) := by
  rw [Action.wp_bind]
  refine Action.wp_mono (wp_logged_write hstays e'.currentFile bytes) ?_
  rintro ok ⟨w', calls'⟩ ⟨rfl, hplace, _⟩
  cases ok with
  | true =>
    refine (Action.wp_pure _).mpr (Pointed.aimed ⟨?_, fun _ => ?_⟩)
    · rw [hsaved.2, hsame.hasCurrentFile, h.hasCurrentFile]
    · rw [lastTarget_ok, hplace, hsaved.1]
  | false =>
    refine (Action.wp_pure _).mpr (Pointed.aimed ⟨?_, fun hnew => ?_⟩)
    · rw [hfailed.hasCurrentFile, hsame.hasCurrentFile, h.hasCurrentFile]
    · rw [hfailed.isNewFile, hsame.isNewFile] at hnew
      rw [lastTarget_failed, hplace, hfailed.currentFile, hsame.currentFile]
      exact (h.pointed hphase).there hnew

theorem sameFile_editKey (c : UInt8) (e : Editor) : SameFile e (editKey c e) := by
  rw [editKey, backspace]
  split_ifs
  all_goals exact ⟨rfl, rfl, rfl⟩

theorem sameFile_copyCurrentLine (e : Editor) : SameFile e (copyCurrentLine e) := by
  rw [copyCurrentLine]
  split
  all_goals exact ⟨rfl, rfl, rfl⟩

theorem sameFile_paste (e : Editor) : SameFile e (paste e) := by
  rw [paste]
  split
  all_goals exact ⟨rfl, rfl, rfl⟩

theorem sameFile_undo (e : Editor) : SameFile e (undo e) := by
  rw [undo]
  split
  all_goals exact ⟨rfl, rfl, rfl⟩

theorem sameFile_redo (e : Editor) : SameFile e (redo e) := by
  rw [redo]
  split
  all_goals exact ⟨rfl, rfl, rfl⟩

theorem sameFile_moveTo (e : Editor) (found : Option (Nat × Nat)) : SameFile e (moveTo e found) := by
  cases found with
  | none => exact .refl e
  | some p => exact ⟨rfl, rfl, rfl⟩

theorem sameFile_findNext (e : Editor) : SameFile e (findNext e) := by
  rw [findNext]
  split
  · exact .refl e
  · exact sameFile_moveTo e _

theorem sameFile_findPrevious (e : Editor) : SameFile e (findPrevious e) := by
  rw [findPrevious]
  split
  · exact .refl e
  · exact sameFile_moveTo e _

theorem sameFile_acceptInput (e : Editor) (value : Text) (purpose : InputPurpose) :
    SameFile e (acceptInput e value purpose) := by
  cases purpose with
  | find =>
    rw [acceptInput, findFirst]
    split
    · exact .refl e
    · split
      · exact .refl e
      · exact ⟨rfl, rfl, rfl⟩
  | goTo =>
    rw [acceptInput, goToLine]
    cases parsePositiveInt value with
    | none => exact .refl e
    | some target =>
      dsimp only
      split
      · exact ⟨rfl, rfl, rfl⟩
      · exact .refl e
  | replaceFind =>
    rw [acceptInput]
    split
    · exact .refl e
    · exact ⟨rfl, rfl, rfl⟩
  | replaceWith find => exact ⟨rfl, rfl, rfl⟩

theorem sameFile_handleExitRequest (e : Editor) : SameFile e (handleExitRequest e) := by
  rw [handleExitRequest]
  split
  all_goals exact ⟨rfl, rfl, rfl⟩

theorem aimed_save (hstays : api.Stays place) (h : Aimed place (e, w, calls)) (hphase : NoDialog e)
    (hsame : SameFile e e') :
    (save (logged api place) e').wp (fun e₁ s => Aimed place (e₁, s)) (w, calls) := by
  rw [save]
  refine Action.wp_ite (fun _ => ?_) (fun _ => (Action.wp_pure _).mpr (h.edit hphase hsame))
  exact aimed_write hstays h hphase hsame (by exact ⟨rfl, rfl⟩) (by exact .refl e') _

theorem aimed_menuEnter (hstays : api.Stays place) (h : Aimed place (e, w, calls)) (hphase : NoDialog e) :
    (menuEnter (logged api place) e).wp (fun e₁ s => Aimed place (e₁, s)) (w, calls) := by
  have hclosed : SameFile e { e with menuMode := false } := ⟨rfl, rfl, rfl⟩
  have hquiet : ∀ e₁, SameFile { e with menuMode := false } e₁ →
      (pure e₁ : Action (W × List (FileCall P)) Editor).wp (fun e₁ s => Aimed place (e₁, s)) (w, calls) :=
    fun e₁ h₁ => (Action.wp_pure _).mpr (h.edit hphase (hclosed.trans h₁))
  simp only [menuEnter]
  split
  · exact (Action.wp_pure _).mpr (Pointed.aimed ⟨rfl, fun hnew => absurd hnew Bool.noConfusion⟩)
  · exact aimed_openFileDialog h .openFile hclosed
  · exact aimed_save hstays h hphase hclosed
  · exact aimed_openFileDialog h .saveAs hclosed
  · exact hquiet _ (sameFile_handleExitRequest _)
  · exact hquiet _ (sameFile_copyCurrentLine _)
  · exact hquiet _ (sameFile_paste _)
  · exact hquiet _ (.refl _)
  · exact hquiet _ (sameFile_undo _)
  · exact hquiet _ (sameFile_redo _)
  · exact hquiet _ ⟨rfl, rfl, rfl⟩
  · exact hquiet _ (sameFile_findNext _)
  · exact hquiet _ (sameFile_findPrevious _)
  · exact hquiet _ ⟨rfl, rfl, rfl⟩
  · exact hquiet _ ⟨rfl, rfl, rfl⟩
  · exact hquiet _ ⟨rfl, rfl, rfl⟩
  · exact hquiet _ (.refl _)

theorem aimed_mainKey (hstays : api.Stays place) (h : Aimed place (e, w, calls)) (hphase : NoDialog e) :
    (mainKey (logged api place) c e).wp (fun e₁ s => Aimed place (e₁, s)) (w, calls) := by
  have hquiet : ∀ e₁, SameFile e e₁ →
      (pure e₁ : Action (W × List (FileCall P)) Editor).wp (fun e₁ s => Aimed place (e₁, s)) (w, calls) :=
    fun e₁ h₁ => (Action.wp_pure _).mpr (h.edit hphase h₁)
  rw [mainKey]
  refine Action.wp_ite (fun _ => hquiet _ (sameFile_handleExitRequest e)) (fun _ => Action.wp_ite
    (fun _ => hquiet _ ?_) (fun _ => Action.wp_ite (fun _ => ?_) (fun _ => hquiet _ (sameFile_editKey c e))))
  · split
    all_goals exact ⟨rfl, rfl, rfl⟩
  · rw [menuKey]
    refine Action.wp_ite (fun _ => hquiet _ ⟨rfl, rfl, rfl⟩) (fun _ => Action.wp_ite
      (fun _ => hquiet _ ⟨rfl, rfl, rfl⟩) (fun _ => Action.wp_ite (fun _ => hquiet _ ⟨rfl, rfl, rfl⟩)
      (fun _ => Action.wp_ite (fun _ => hquiet _ ⟨rfl, rfl, rfl⟩) (fun _ => Action.wp_ite
      (fun _ => aimed_menuEnter hstays h hphase) (fun _ => hquiet _ (.refl e))))))

theorem Aimed.back (h : Aimed place (e, w, calls))
    (hback : e.isNewFile = false → ∀ t, lastTarget calls = some t → t.1 = place w)
    (hplace : place w' = place w) (hcalls : lastTarget calls' = lastTarget calls) :
    Pointed place e w' calls' := by
  refine ⟨h.hasCurrentFile, fun hnew => ?_⟩
  obtain ⟨p, hp⟩ := h.named hnew
  have hpw : p = place w := hback hnew _ hp
  rw [hcalls, hp, hpw, hplace]

theorem pointed_saveFileAs (hstays : api.Stays place) (h : Aimed place (e, w, calls)) {fileName : CStr}
    (hshort : strCopy fileNameSize fileName = fileName) (hsame : SameFile e e')
    (hback : e.isNewFile = false → (∃ w', api.fileWrite fileName (exported e') w = some (false, w')) →
      ∀ t, lastTarget calls = some t → t.1 = place w) :
    (saveFileAs (logged api place) fileName e').wp (fun r s => Pointed place r.1 s.1 s.2) (w, calls) := by
  rw [saveFileAs, Action.wp_bind]
  refine Action.wp_mono (wp_logged_write hstays fileName (exported e')) ?_
  rintro ok ⟨w', calls'⟩ ⟨rfl, hplace, hwrite⟩
  cases ok with
  | true =>
    refine (Action.wp_pure _).mpr ⟨rfl, fun _ => ?_⟩
    rw [lastTarget_ok, hplace]
    exact congrArg (fun n => some (place w, n)) hshort.symm
  | false =>
    exact (Action.wp_pure _).mpr
      ((h.back (fun hnew => hback hnew ⟨w', hwrite⟩) hplace lastTarget_failed).congr hsame)

theorem aimed_useName (hstays : api.Stays place) (h : Aimed place (e, w, calls)) {purpose : FilePurpose}
    {fileName : CStr} (hshort : strCopy fileNameSize fileName = fileName)
    (hback : e.isNewFile = false → Fails api purpose fileName e w →
      ∀ t, lastTarget calls = some t → t.1 = place w) :
    (useName (logged api place) fileName { e with phase := .editing } purpose).wp
      (fun e₁ s => Aimed place (e₁, s)) (w, calls) := by
  have hsame : SameFile e { e with phase := .editing } := ⟨rfl, rfl, rfl⟩
  cases purpose with
  | openFile =>
    rw [useName, openFile, Action.wp_bind]
    refine Action.wp_mono (wp_logged_read hstays fileName editMaxFileBytes) ?_
    rintro read ⟨w', calls'⟩ ⟨rfl, hplace, hread⟩
    cases read with
    | none =>
      exact (Action.wp_pure _).mpr
        ((h.back (fun hnew => hback hnew ⟨w', hread⟩) hplace lastTarget_failed).congr hsame).aimed
    | some bytes =>
      refine (Action.wp_pure _).mpr (Pointed.aimed ⟨rfl, fun _ => ?_⟩)
      rw [Option.isSome_some, lastTarget_ok, hplace]
      exact congrArg (fun n => some (place w, n)) hshort.symm
  | saveAs =>
    rw [useName, Action.wp_bind]
    refine Action.wp_mono (pointed_saveFileAs hstays h hshort hsame hback) ?_
    rintro ⟨e₁, ok⟩ s hpointed
    exact (Action.wp_pure _).mpr hpointed.aimed
  | exit =>
    rw [useName, Action.wp_bind]
    refine Action.wp_mono (pointed_saveFileAs hstays h hshort hsame hback) ?_
    rintro ⟨e₁, ok⟩ s hpointed
    refine Action.wp_ite (fun _ => (Action.wp_pure _).mpr ?_) (fun _ => (Action.wp_pure _).mpr hpointed.aimed)
    have hclosed : SameFile e₁ { e₁ with phase := .closed } := ⟨rfl, rfl, rfl⟩
    exact (hpointed.congr hclosed).aimed

theorem aimed_fileDialogKey (hstays : api.Stays place) (h : Aimed place (e, w, calls))
    {purpose : FilePurpose} {d : FileDialog} (hphase : e.phase = .fileDialog purpose d)
    (hreturns : Returns api place (e, w, calls) c) :
    (fileDialogKey (logged api place) c e purpose d).wp (fun e₁ s => Aimed place (e₁, s)) (w, calls) := by
  rw [fileDialogKey]
  refine Action.wp_ite (fun hescape => (Action.wp_pure _).mpr ?_) (fun _ => ?_)
  · have hback := h.back (fun hnew => hreturns purpose d hphase hnew (.inl hescape)) rfl rfl
    exact (hback.congr (by exact ⟨rfl, rfl, rfl⟩)).aimed
  · rw [Action.wp_bind]
    refine Action.wp_mono (Action.wp_and (dialogKey_name (w := (w, calls)))
      (silent_dialogKey c purpose d (w, calls))) ?_
    rintro reply ⟨w₁, calls₁⟩ ⟨hleft, rfl⟩
    cases reply with
    | stay d' => exact (Action.wp_pure _).mpr (h.dialog ⟨rfl, rfl, rfl⟩ rfl)
    | name fileName =>
      obtain ⟨heq, hname⟩ := hleft fileName rfl
      cases heq
      exact aimed_useName hstays h (chosenName_short hname) (fun hnew hfails =>
        hreturns purpose d hphase hnew (.inr ⟨fileName, hname, hfails⟩))

theorem aimed_exitSave (hstays : api.Stays place) (h : Aimed place (e, w, calls)) (hphase : NoDialog e) :
    (exitSave (logged api place) e).wp (fun e₁ s => Aimed place (e₁, s)) (w, calls) := by
  rw [exitSave]
  refine Action.wp_ite (fun _ => aimed_openFileDialog h .exit (.refl e)) (fun _ => ?_)
  exact aimed_write hstays h hphase (.refl e) (by exact ⟨rfl, rfl⟩) (by exact ⟨rfl, rfl, rfl⟩) _

/-- One key. -/
theorem aimed_press (hstays : api.Stays place) (h : Aimed place (e, w, calls))
    (hreturns : Returns api place (e, w, calls) c) :
    (press (logged api place) c e).wp (fun e₁ s => Aimed place (e₁, s)) (w, calls) := by
  have hquiet : NoDialog e → ∀ e₁, SameFile e e₁ →
      (pure e₁ : Action (W × List (FileCall P)) Editor).wp (fun e₁ s => Aimed place (e₁, s)) (w, calls) :=
    fun hphase e₁ h₁ => (Action.wp_pure _).mpr (h.edit hphase h₁)
  rw [press]
  cases hphase : e.phase with
  | editing => exact aimed_mainKey hstays h (by rw [NoDialog, hphase]; rintro _ _ ⟨⟩)
  | fileDialog purpose d => exact aimed_fileDialogKey hstays h hphase hreturns
  | unsavedDialog =>
    have hno : NoDialog e := by rw [NoDialog, hphase]; rintro _ _ ⟨⟩
    dsimp only
    rw [unsavedKey]
    refine Action.wp_ite (fun _ => aimed_exitSave hstays h hno) (fun _ => ?_)
    refine Action.wp_ite (fun _ => hquiet hno _ ⟨rfl, rfl, rfl⟩) (fun _ => ?_)
    exact Action.wp_ite (fun _ => hquiet hno _ ⟨rfl, rfl, rfl⟩) (fun _ => hquiet hno _ (.refl e))
  | aboutDialog =>
    refine hquiet (by rw [NoDialog, hphase]; rintro _ _ ⟨⟩) _ ?_
    rw [aboutKey]
    split
    all_goals exact ⟨rfl, rfl, rfl⟩
  | inputDialog purpose value =>
    refine hquiet (by rw [NoDialog, hphase]; rintro _ _ ⟨⟩) _ ?_
    rw [inputKey]
    split_ifs
    · exact ⟨rfl, rfl, rfl⟩
    · exact @SameFile.trans _ _ { e with phase := .editing } ⟨rfl, rfl, rfl⟩
        (sameFile_acceptInput _ value purpose)
    all_goals exact ⟨rfl, rfl, rfl⟩
  | closed => exact Action.wp_diverge.mpr trivial

end Keys

/-! ## Runs -/

section Runs

variable {W P : Type} {api : FileApi W} {place : W → P}

theorem aimed_start (undoLines redoLines : Grid) (w : W) :
    Aimed place (Editor.start undoLines redoLines, w, []) :=
  Pointed.aimed ⟨rfl, fun hnew => absurd hnew Bool.noConfusion⟩

theorem press_menuEnter {api : FileApi W} {e : Editor} {c : UInt8} (hphase : e.phase = .editing)
    (hmenu : e.menuMode = true) (henter : isEnter c = true) : press api c e = menuEnter api e := by
  have hother : ∀ k, isEnter k = false → c ≠ k := by
    rintro k hk rfl
    exact absurd (hk.symm.trans henter) Bool.false_ne_true
  rw [press, hphase]
  simp only [mainKey, menuKey]
  rw [if_neg (hother keyEscape (by decide)), if_neg (hother keyAltToggle (by decide)), if_pos hmenu,
    if_neg (hother keyLeft (by decide)), if_neg (hother keyRight (by decide)),
    if_neg (hother keyUp (by decide)), if_neg (hother keyDown (by decide)), if_pos henter]

theorem menuEnter_save {api : FileApi W} {e : Editor} (hindex : e.menuIndex = 0) (hitem : e.menuItem = 2) :
    menuEnter api e = save api { e with menuMode := false } := by
  cases e
  cases hindex
  cases hitem
  rfl

/-- The write of a save goes to the last target. -/
theorem savesThere_of_pointed (hstays : api.Stays place) {s : Session W P}
    (h : NoDialog s.1 → Pointed place s.1 s.2.1 s.2.2) : SavesThere api place s := by
  obtain ⟨e, w, calls⟩ := s
  have hwrite : ∀ (e' e₁ e₂ : Editor), e'.currentFile = e.currentFile → Pointed place e w calls →
      e.isNewFile = false → (do
        let ok ← (logged api place).fileWrite e'.currentFile (exported e')
        if ok then pure e₁ else pure e₂ : Action (W × List (FileCall P)) Editor).wp
      (fun _ s' => ∃ t ok, lastTarget calls = some t ∧ s'.2 = ⟨true, t, ok⟩ :: calls) (w, calls) := by
    intro e' e₁ e₂ hname hpointed hnew
    rw [Action.wp_bind]
    refine Action.wp_mono (wp_logged_write hstays e'.currentFile (exported e')) ?_
    rintro ok ⟨w', calls'⟩ ⟨hcalls, _, _⟩
    have hthere : ∃ t ok, lastTarget calls = some t ∧ calls' = ⟨true, t, ok⟩ :: calls :=
      ⟨_, ok, hpointed.there hnew, hname ▸ hcalls⟩
    exact Action.wp_ite (fun _ => (Action.wp_pure _).mpr hthere) (fun _ => (Action.wp_pure _).mpr hthere)
  rintro c ⟨e', s'⟩ hsaves hnew hstep
  suffices hpress : (press (logged api place) c e).wp
      (fun _ s' => ∃ t ok, lastTarget calls = some t ∧ s'.2 = ⟨true, t, ok⟩ :: calls) (w, calls) from
    hpress e' s' hstep
  rcases hsaves with ⟨hphase, hmenu, hindex, hitem, henter⟩ | ⟨hphase, hkey⟩
  · have hpointed := h (by rw [NoDialog, hphase]; rintro _ _ ⟨⟩)
    rw [press_menuEnter hphase hmenu henter, menuEnter_save hindex hitem, save, if_pos hpointed.hasCurrentFile]
    exact hwrite { e with menuMode := false } _ _ rfl hpointed hnew
  · have hpointed := h (by rw [NoDialog, hphase]; rintro _ _ ⟨⟩)
    have hstay : ¬ (e.isNewFile = true ∨ ¬ e.hasCurrentFile = true) := by
      rintro (hnew' | hcurrent)
      · exact absurd (hnew.symm.trans hnew') Bool.false_ne_true
      · exact hcurrent hpointed.hasCurrentFile
    rw [press, hphase]
    simp only [unsavedKey]
    rw [if_pos hkey, exitSave, if_neg hstay]
    exact hwrite e _ _ rfl hpointed hnew

theorem savesThere_run (hstays : api.Stays place) (undoLines redoLines : Grid) (w : W) {cs : List UInt8}
    {s : Session W P} (hrun : Transition.run (step (logged api place)) (Editor.start undoLines redoLines, w, []) cs = some s)
    (hmeets : Transition.Meets (step (logged api place)) (Returns api place)
      (Editor.start undoLines redoLines, w, []) cs) : SavesThere api place s := by
  have hstep : ∀ (s : Session W P) (c : UInt8) (s' : Session W P), Aimed place s → Returns api place s c →
      step (logged api place) s c = some s' → Aimed place s' := by
    rintro ⟨e, w, calls⟩ c ⟨e', s'⟩ h hreturns hstep
    exact aimed_press hstays h hreturns e' s' hstep
  have haimed : Aimed place s :=
    Transition.run_invariant hstep cs _ s (aimed_start undoLines redoLines w) hmeets hrun
  exact savesThere_of_pointed hstays haimed.pointed

end Runs

/-! ## The kernel -/

section OnKernel

abbrev saving (fails : Nat → Bool) (fuel : Nat) : FileApi ((Kernel × Task) × List (FileCall (Nat × Nat))) :=
  logged (kernelApi fails fuel) Files.place

theorem save_target (fails : Nat → Bool) (fuel : Nat) (undoLines redoLines : Grid) (w : Kernel × Task)
    {cs : List UInt8} {s : Session (Kernel × Task) (Nat × Nat)}
    (hrun : Transition.run (step (saving fails fuel)) (Editor.start undoLines redoLines, w, []) cs = some s)
    (hmeets : Transition.Meets (step (saving fails fuel)) (Returns (kernelApi fails fuel) Files.place)
      (Editor.start undoLines redoLines, w, []) cs) :
    SavesThere (kernelApi fails fuel) Files.place s :=
  savesThere_run (kernelApi_stays fails fuel) undoLines redoLines w hrun hmeets

/-! The root has a file `A` and a directory `D`, and the task is in the root. -/

def savingStart : Option (Session (Kernel × Task) (Nat × Nat)) :=
  strollStart.map fun m => (Editor.start editorClear.lines editorClear.lines, (m.kernel, rootTask 0 true), [])

/-- `Save As` goes into `D` and takes the name `A`. -/
def saveInD : List UInt8 :=
  [keyAltToggle, keyDown, keyDown, keyDown, 0x0D, keyDown, 0x0D, 0x41, 0x0D]

/-- The dialog of `Open` is left by ESC, in the root. -/
def leaveOpen : List UInt8 := [keyAltToggle, keyDown, 0x0D, keyEscape]

/-- `Save` is reached in the menu. -/
def reachSave : List UInt8 := [keyAltToggle, keyDown, keyDown]

def Editor.isEditing (e : Editor) : Bool :=
  match e.phase with
  | .editing => true
  | _ => false

theorem Editor.phase_of_isEditing {e : Editor} (h : e.isEditing = true) : e.phase = .editing := by
  rw [isEditing] at h
  split at h
  · assumption
  · cases h

theorem returns_of_quiet {W P : Type} {api : FileApi W} {place : W → P} {s : Session W P} {c : UInt8}
    (h : s.1.isNewFile = true ∨ s.1.isEditing = true) : Returns api place s c := by
  intro purpose d hphase hnew
  rcases h with h | h
  · exact absurd (h.symm.trans hnew) Bool.noConfusion
  · rw [Editor.phase_of_isEditing h] at hphase
    cases hphase

/-- The document of `D` is saved over the file of that name in the root. -/
theorem save_elsewhere : ¬ ∀ (fails : Nat → Bool) (fuel : Nat) (undoLines redoLines : Grid) (w : Kernel × Task)
    (cs : List UInt8) (s : Session (Kernel × Task) (Nat × Nat)),
    Transition.run (step (saving fails fuel)) (Editor.start undoLines redoLines, w, []) cs = some s →
    SavesThere (kernelApi fails fuel) Files.place s := by
  intro h
  let cs := saveInD ++ leaveOpen ++ reachSave
  have hruns : (savingStart.bind fun s₀ => (Transition.run (step (saving noFaults 16)) s₀ cs).bind fun s =>
      (step (saving noFaults 16) s 0x0D).map fun s' => decide (s.1.isEditing = true ∧
        s.1.menuMode = true ∧ s.1.menuIndex = 0 ∧ s.1.menuItem = 2 ∧ s.1.isNewFile = false ∧
        lastTarget s.2.2 = some ((0, 3), [0x41]) ∧
        s'.2.2.head?.map FileCall.target = some ((0, 0), [0x41]))) = some true := by
    decide +kernel
  obtain ⟨s₀, hs₀, hruns⟩ := Option.bind_eq_some_iff.mp hruns
  obtain ⟨s, hrun, hruns⟩ := Option.bind_eq_some_iff.mp hruns
  obtain ⟨s', hstep, hseen⟩ := Option.map_eq_some_iff.mp hruns
  obtain ⟨hediting, hmenu, hindex, hitem, hnew, hlast, hroot⟩ := of_decide_eq_true hseen
  obtain ⟨m, _, rfl⟩ := Option.map_eq_some_iff.mp hs₀
  obtain ⟨t, ok, ht, hcalls⟩ := h noFaults 16 _ _ _ cs s hrun 0x0D s'
    (.inl ⟨Editor.phase_of_isEditing hediting, hmenu, hindex, hitem, rfl⟩) hnew hstep
  rw [hcalls, List.head?_cons, Option.map_some] at hroot
  have hne : (((0, 3), [0x41]) : (Nat × Nat) × CStr) ≠ ((0, 0), [0x41]) := by decide
  exact hne (Option.some.inj ((hlast.symm.trans ht).trans hroot))

/-- The menu is at `Save` after the `Save As`. -/
theorem save_target_inD : ∃ w s, Transition.run (step (saving noFaults 16))
      (Editor.start editorClear.lines editorClear.lines, w, []) (saveInD ++ reachSave) = some s ∧
    s.1.isNewFile = false ∧ SavesThere (kernelApi noFaults 16) Files.place s := by
  have hruns : (savingStart.bind fun s₀ => (Transition.run (step (saving noFaults 16)) s₀
      (saveInD ++ reachSave)).map fun s => s.1.isNewFile) = some false := by
    decide +kernel
  have hquiet : ∀ s₀ ∈ savingStart, Transition.Meets (step (saving noFaults 16))
      (fun s _ => s.1.isNewFile = true ∨ s.1.isEditing = true) s₀ (saveInD ++ reachSave) := by
    decide +kernel
  obtain ⟨s₀, hs₀, hruns⟩ := Option.bind_eq_some_iff.mp hruns
  obtain ⟨s, hrun, hnew⟩ := Option.map_eq_some_iff.mp hruns
  obtain ⟨m, hm, heq⟩ := Option.map_eq_some_iff.mp hs₀
  have hmeets : Transition.Meets (step (saving noFaults 16)) (Returns (kernelApi noFaults 16) Files.place)
      s₀ (saveInD ++ reachSave) :=
    @Transition.meets_of_invariant _ _ _ (fun _ => True) _ _ (fun _ _ _ _ _ _ => trivial)
      (fun _ _ _ h => returns_of_quiet h) _ s₀ trivial (hquiet s₀ hs₀)
  subst heq
  exact ⟨_, s, hrun, hnew, save_target noFaults 16 _ _ _ hrun hmeets⟩

end OnKernel

end Edit
end MiniDos
