import MiniDos.Fat.CopyContent
import MiniDos.Fat.MakeDir

/-!
# MiniDos.Fat.CopyCorrect

What a copy achieves on a well-formed volume without faults.

* `CopyOf`: what a copy promises: a second entry for the same bytes, on clusters of its own.
* `copyFile_hasCopy_iff`: a copy that succeeds keeps that promise exactly when the new entry answers
  to the name it was made for.
-/

namespace MiniDos
namespace Fat16

open BlockIO Chain

variable {ctx : Ctx Buffer Sector} {g : Globals} {m m' : DriverMem} {d e : Disk} {fuel : Nat}
variable {name : CStr} {x : DirectoryEntry}

/-! ## A copy -/

/-- The file `q` of one directory has got a copy `p` in another: the same size, bytes and attributes,
on a chain that no other entry has. All other entries and files are as before, that of the source
among them. -/
structure CopyOf (g : Globals) (fuel : Nat) (m m' : DriverMem) (srcDir : Nat) (srcName : CStr)
    (dstDir : Nat) (dstName : CStr) (q p : Slot) (ls l : List Nat) (bytes : List Byte) : Prop where
  source : HoldsFile g fuel m srcDir srcName q ls bytes
  copy : HoldsFile g fuel m' dstDir dstName p l bytes
  attributes : (entryAt m'.disk p).attributes = (entryAt m.disk q).attributes
  vacant : Vacant g m.disk p
  apart : ∀ r lr, LiveSlot g m'.disk r → r ≠ p → Chained g m'.disk (entryAt m'.disk r).first lr →
    ∀ x ∈ l, x ∉ lr
  others : OthersKept g m.disk m'.disk dstDir p

/-- The file is there once more, under the new name. -/
def HasCopy (g : Globals) (fuel : Nat) (m m' : DriverMem) (srcDir : Nat) (srcName : CStr)
    (dstDir : Nat) (dstName : CStr) : Prop :=
  ∃ q p ls l bytes, CopyOf g fuel m m' srcDir srcName dstDir dstName q p ls l bytes

def Recalled (name : CStr) : Prop :=
  ∀ name83, formatName name = some name83 → (newEntry name83 0 0 0).hits name = true

theorem plain_not_volumeId {n : Name} {cluster fileSize : Nat} :
    (newEntry n cluster fileSize 0).isVolumeId = false :=
  show ((0 : UInt8) &&& attrVolumeId != 0) = false by decide

theorem hits_plain {n : Name} {cluster fileSize : Nat} {attributes : UInt8}
    (hv : (newEntry n cluster fileSize attributes).isVolumeId = false) :
    (newEntry n cluster fileSize attributes).hits name = (newEntry n 0 0 0).hits name := by
  refine hits_congr rfl ?_ ?_
  · rw [hv, plain_not_volumeId]
  · rw [isLongName_of_not_volumeId hv, isLongName_of_not_volumeId plain_not_volumeId]

theorem lookup_not_label {ps : List Slot} {p : Slot} (h : lookup name d ps = some p) :
    (entryAt d p).isVolumeId = false := by
  have hhit := lookup_hits h
  unfold DirectoryEntry.hits at hhit
  rw [Bool.and_eq_true] at hhit
  exact (isVisible_iff.mp hhit.1).2

theorem not_dot_of_hits (hname : isDotName name = false)
    (h : x.hits name = true) : x.isDot = false := by
  unfold DirectoryEntry.hits at h
  rw [Bool.and_eq_true] at h
  exact not_dot_of_matchName hname h.2

theorem recalled_of_capital (hup : name.Capital) (hmark : name.at 0 ≠ 0xE5) :
    Recalled name := by
  intro name83 hformat
  refine hits_of_capital hup hformat rfl plain_not_volumeId ?_
  rcases formatName_head hformat with h0 | ⟨c, cs, rfl, h0⟩
  · rw [h0]
    decide
  · rw [h0, (hup c List.mem_cons_self).2]
    exact hmark

theorem mark_of_hits (h : x.hits name = true) :
    name.at 0 ≠ 0xE5 := by
  intro h0
  have hlive := (DirectoryEntry.isLive_iff.mp (DirectoryEntry.isLive_of_hits h)).2
  unfold DirectoryEntry.hits at h
  rw [Bool.and_eq_true] at h
  have hdot : isDotName name = false := by simp [isDotName, h0, chDot]
  have hmatch := h.2
  rw [matchName_plain hdot] at hmatch
  unfold matchBase at hmatch
  rw [if_neg (by rw [h0]; decide)] at hmatch
  by_cases hbyte : x.nameAt 0 = 0xE5
  · simp [DirectoryEntry.isDeleted, hbyte] at hlive
  · rw [if_pos (by rw [h0]; exact hbyte)] at hmatch
    cases hmatch

theorem recalled_of_found {ps : List Slot} {p : Slot} (hup : name.Capital)
    (h : lookup name d ps = some p) : Recalled name :=
  recalled_of_capital hup (mark_of_hits (lookup_hits h))

section Copy

variable {srcDir dstDir : Nat} {lsrc ldst : List Nat} {srcName dstName : CStr}

theorem lookup_missed {D' : Nat → Prop} {ch' : Nat → List Nat} {p : Slot} {l : List Nat}
    {d' : Disk} (hg : g.Valid) (hdir : IsDir g d dstDir) (hs : Scratch g d e)
    (hl : Chained g d dstDir ldst)
    (hent : Entered ctx g e (IsDir g d) (chainOf g d) dstDir x l d' D' ch' p)
    (hmiss : x.hits dstName = false) (hnew : lookup dstName d (dirSlots g dstDir ldst) = none) :
    lookup dstName d' (dirSlots g dstDir (ch' dstDir)) = none := by
  have hedit := hent.edit.after_scratch hg hs
  refine List.find?_eq_none.mpr (fun q hq hhit => ?_)
  by_cases hqp : q = p
  · rw [hqp, hedit.entry_self, hmiss] at hhit
    cases hhit
  rcases hent.kept.slot_cases hdir hq with heq | hold | hend
  · exact hqp heq
  · rw [chainOf_eq hg hl] at hold
    rw [hedit.entry_eq hl hold hqp] at hhit
    exact List.find?_eq_none.mp hnew q hold hhit
  · have := (DirectoryEntry.isLive_iff.mp (DirectoryEntry.isLive_of_hits hhit)).1
    rw [hend] at this
    cases this

theorem CopyReady.bytes {ls l : List Nat} {size first : Nat} (h : CopyReady g d ls size first l e) :
    ((chainBytes g d ls).take size).length = size ∧
      Spells g e l (fun k => ((chainBytes g d ls).take size).getD k 0) size := by
  have hlen : ((chainBytes g d ls).take size).length = size := by
    rw [List.length_take, length_chainBytes]
    exact Nat.min_eq_left h.enough
  refine ⟨hlen, fun k hk => ?_⟩
  obtain ⟨lba, hlba, hbyte⟩ := h.spells k hk
  refine ⟨lba, hlba, hbyte.trans ?_⟩
  show (chainBytes g d ls).getD k 0 = ((chainBytes g d ls).take size).getD k 0
  rw [List.getD_eq_getElem?_getD, List.getD_eq_getElem?_getD, List.getElem?_take, if_pos hk]

section Ends

variable (hg : g.Valid) (hfuel : g.getTotalClusters ≤ fuel) (hw : WellFormed g m.disk)
  (hsrc : IsDir g m.disk srcDir) (hdst : IsDir g m.disk dstDir)
  (hlsrc : Chained g m.disk srcDir lsrc) (hldst : Chained g m.disk dstDir ldst)
  (h : Duplicated g m.disk srcDir lsrc srcName dstDir ldst dstName m')
include hg hfuel hw hsrc hdst hlsrc hldst h

theorem Duplicated.hasCopy (hrec : Recalled dstName) :
    HasCopy g fuel m m' srcDir srcName dstDir dstName := by
  obtain ⟨hs83, q, ls, hfound, hfile, hls, l, first, e, name83, hmade⟩ := h
  obtain ⟨src83, hs83⟩ := Option.isSome_iff_exists.mp hs83
  obtain ⟨last, hchain⟩ := hmade.ready.chain
  obtain ⟨hlen, hspells⟩ := hmade.ready.bytes
  have hfirst := newEntry_first name83 (hchain.first_lt hg) (entryAt m.disk q).fileSize.toNat
    (entryAt m.disk q).attributes
  have hlabel := lookup_not_label hfound
  have hplain : (newEntry name83 first (entryAt m.disk q).fileSize.toNat
      (entryAt m.disk q).attributes).isDirectory = false := hfile
  have hhit : (newEntry name83 first (entryAt m.disk q).fileSize.toNat
      (entryAt m.disk q).attributes).hits dstName = true :=
    (hits_plain hlabel).trans (hrec name83 hmade.format)
  obtain ⟨D', ch', p, hent⟩ :=
    hmade.added.entered_file hg hw hdst hldst hchain hmade.format hplain
  have hself := (hent.edit.after_scratch hg hchain.scratch).entry_self
  obtain ⟨hholds, hkept⟩ := entered_correct hg hw hdst hfuel Ctx.quiet_not_faulty hldst
    (formatName_at_zero hmade.format) (formatName_not_dot hmade.format)
    (by rw [hfirst]; exact hchain) (by rw [hlen]; exact hspells) hplain
    ((UInt32.toNat_ofNat_of_lt' (entryAt m.disk q).fileSize.toNat_lt).trans hlen.symm) hhit
    hmade.new hent
  refine ⟨q, p, ls, l, _, ⟨run_findEntry hg hfuel ⟨hlsrc, hw.endMarked _ _ hsrc hlsrc⟩
    (formatName_at_zero hs83) hfound, hfile, hlen.symm, hls, by rw [hlen]⟩, hholds, by rw [hself]; rfl,
    hent.vacant hg hchain.scratch, fun r lr hr hne hlr => ?_, hkept⟩
  have hheld : Held g m'.disk D' ch' p := by
    refine ⟨dstDir, hent.keep dstDir hdst, hent.slot, ?_, ?_⟩
    · rw [hself]
      exact DirectoryEntry.isLive_of_hits hhit
    · rw [hself]
      exact not_dot_of_hits (formatName_not_dot hmade.format) hhit
  exact hent.kept.inv.apart hg hheld (hent.kept.inv.held hg hr) hne.symm hholds.chain hlr

omit hsrc hlsrc in
theorem Duplicated.recalled (hcopy : HasCopy g fuel m m' srcDir srcName dstDir dstName) :
    Recalled dstName := by
  obtain ⟨_, q, ls, hfound, hfile, _, l, first, e, name83, hmade⟩ := h
  obtain ⟨last, hchain⟩ := hmade.ready.chain
  obtain ⟨D', ch', p, hent⟩ :=
    hmade.added.entered_file hg hw hdst hldst hchain hmade.format hfile
  obtain ⟨_, p', _, _, _, hcopy⟩ := hcopy
  obtain ⟨m₁, hrun⟩ := hcopy.copy.found
  intro other hother
  obtain rfl := Option.some.inj (hmade.format.symm.trans hother)
  by_contra hno
  have hlabel := lookup_not_label hfound
  have hmiss : (newEntry name83 first (entryAt m.disk q).fileSize.toNat
      (entryAt m.disk q).attributes).hits dstName = false :=
    (hits_plain hlabel).trans (by simpa using hno)
  have hnone := lookup_missed hg hdst hchain.scratch hldst hent hmiss hmade.new
  obtain ⟨m₂, hrun₂, _⟩ := exists_run_findEntry hg hfuel
    (hent.kept.inv.dir dstDir (hent.keep dstDir hdst)) dstName
  rw [show foundSlot dstName m'.disk (dirSlots g dstDir (ch' dstDir)) = none by
    unfold foundSlot
    rw [hnone, ite_self]] at hrun₂
  cases hrun.symm.trans hrun₂

end Ends

theorem copyFile_duplicated (hg : g.Valid) (hfuel : g.getTotalClusters ≤ fuel)
    (hw : WellFormed g m.disk) (hsrc : IsDir g m.disk srcDir) (hdst : IsDir g m.disk dstDir)
    (hlsrc : Chained g m.disk srcDir lsrc) (hldst : Chained g m.disk dstDir ldst)
    (hrun : (copyFileBetweenDirs g fuel srcDir srcName dstDir dstName).run noFaults m =
      some (true, m')) : Duplicated g m.disk srcDir lsrc srcName dstDir ldst dstName m' :=
  (Prog.run_of_wp noFaults (fun _ hf => by cases hf)
    (wp_copyFile_duplicated hg ⟨hlsrc, hw.endMarked _ _ hsrc hlsrc⟩ ⟨hldst, hw.endMarked _ _ hdst hldst⟩
      hfuel (fun _ hn hp => hw.found_chained hg hsrc hlsrc hn hp))).1 true m' hrun rfl

theorem copyFile_hasCopy_iff (hg : g.Valid) (hfuel : g.getTotalClusters ≤ fuel)
    (hw : WellFormed g m.disk) (hsrc : IsDir g m.disk srcDir) (hdst : IsDir g m.disk dstDir)
    (hrun : (copyFileBetweenDirs g fuel srcDir srcName dstDir dstName).run noFaults m =
      some (true, m')) : HasCopy g fuel m m' srcDir srcName dstDir dstName ↔ Recalled dstName := by
  obtain ⟨lsrc, hlsrc⟩ := hw.dir_chained hsrc
  obtain ⟨ldst, hldst⟩ := hw.dir_chained hdst
  have h := copyFile_duplicated hg hfuel hw hsrc hdst hlsrc hldst hrun
  exact ⟨h.recalled hg hfuel hw hdst hldst, h.hasCopy hg hfuel hw hsrc hdst hlsrc hldst⟩

end Copy

end Fat16
end MiniDos
