import MiniDos.Fat.WriteSpec

/-!
# MiniDos.Fat.CopySpec

`fat16_copy_file_between_dirs`, in every context.

* `wp_copyLoop`: the loop builds a new chain, or gives everything back.
* `wp_copyFileBetweenDirs`: the call gives up with nothing but scratch changed, or makes an entry
  with the size and the attributes of the source for the new chain.
-/

namespace MiniDos
namespace Fat16

open BlockIO Chain

variable {ctx : Ctx Buffer Sector} {g : Globals} {m : DriverMem}

theorem wp_copySectors {src dst : Nat} : ∀ (n s remaining : Nat) (m : DriverMem),
    s + n = g.bpb.sectorsPerCluster → (∀ e, Fills g dst m.disk e → ctx.inv e) →
    (copySectors src (g.clusterSector dst) n s remaining).wp ctx (fun _ m' =>
      Fills g dst m.disk m'.disk) m := by
  intro n
  induction n with
  | zero => intro s remaining m _ _; exact .refl
  | succ n ih =>
    intro s remaining m hs hinv
    unfold copySectors
    by_cases hr : remaining > 0
    · rw [if_pos hr]
      simp only [Prog.wp_bind, wp_readSector]
      refine ⟨fun _ => .refl, ?_⟩
      simp only [if_true, Prog.wp_bind, wp_writeSector]
      have hfill := fills_putSector (g := g) (c := dst) (s := s) (by omega)
        ((m.fetch .main (src + s)).buf .main) m.disk
      refine ⟨fun _ => .refl, hinv _ hfill, ?_⟩
      refine Prog.wp_mono (ih (s + 1) _ _ (by omega) ?_) ?_
      · exact fun e he => hinv e (hfill.trans he)
      · exact fun _ m' h => hfill.trans h
    · rw [if_neg hr]
      exact .refl

/-- How the loop ends: with a chain, or with everything given back. -/
inductive Copied (ctx : Ctx Buffer Sector) (g : Globals) (m₀ : DriverMem) (first : Nat) :
    Option Nat → DriverMem → Prop where
  | done {remaining last : Nat} {l : List Nat} {m : DriverMem}
      (h : NewChain g m₀.disk l first last m.disk) (hmoved : m₀.Moved m) :
      Copied ctx g m₀ first (some remaining) m
  | gaveUp {m : DriverMem} (hs : Scratch g m₀.disk m.disk)
      (hr : ¬ ctx.Faulty → Restored g m₀.disk m.disk) : Copied ctx g m₀ first none m

/-- A link that failed: the new cluster is freed on its own, then the chain, which may or may not
hold it. -/
theorem NewChain.wp_unlink (hg : g.Valid) {d e : Disk} {l : List Nat} {first last c : Nat}
    (h : NewChain g d l first last e) (hl : l ≠ []) (hc : FreeCluster g e c)
    (hinv : ∀ x, Scratch g d x → ctx.inv x)
    (ht : Touches g (fun x => x = last ∨ x = c) (fun _ => False) e m.disk)
    (hfaulty : ctx.Faulty) (hw : g.whole c)
    (hlink : fatGet g m.disk last = fatGet g e last ∨ fatGet g m.disk last = c)
    (hend : fatGet g m.disk c = g.endOfChainValue) :
    (do
      let _ ← freeClusterChain g c
      rollback g first : DiskProg Unit).wp ctx (fun _ m' => Scratch g d m'.disk) m := by
  obtain ⟨hcl, _⟩ := h.fresh hg hc
  have hfree := h.free_snoc hg hc
  have hlast : last ∈ l := by
    obtain ⟨_, pre, hpre⟩ := h.ends.resolve_left (fun hn => hl hn.1)
    rw [hpre]; simp
  have hf0 : first ≠ 0 := fun h0 => hl (h.first_eq_zero.mp h0)
  have hstop : g.isDataCluster g.endOfChainValue = false :=
    endMark_not_data hg (endOfChain_isEndMark g)
  have hone : ChainFrom g m.disk c [c] := ⟨rfl, hc.1, show g.isDataCluster _ = false by
    rw [hend]; exact hstop⟩
  have hboth : ∀ x, Touches g (fun y => y ∈ [c]) (fun _ => False) m.disk x →
      Touches g (fun y => y = last ∨ y = c) (fun _ => False) e x := by
    intro x hx
    refine ht.trans (hx.mono (fun y hy => ?_) (fun _ h => h))
    exact .inr (List.mem_singleton.mp hy)
  rw [Prog.wp_bind]
  refine Prog.wp_mono (wp_freeClusterChain hg (isDataCluster_iff.mp hc.1).1 hone
    (fun x hx => hinv x (.of_list hfree (h.touches_pair hl (hboth x hx))))) ?_
  intro ok m1 hf
  have hlink1 : fatGet g m1.disk last = fatGet g e last ∨ fatGet g m1.disk last = c := by
    rw [hf.touches.fatGet_eq hg (inTable_of_data hg (h.free last hlast).1) ?_]
    · exact hlink
    · intro hm
      exact hcl (List.mem_singleton.mp hm ▸ hlast)
  have hend1 : g.isDataCluster (fatGet g m1.disk c) = false := by
    rcases hf.values c (List.mem_singleton.mpr rfl) hw with hv | hv
    · rw [hv]
      exact zero_not_data g
    · rw [hv, hend]
      exact hstop
  obtain ⟨l', hl', hch⟩ := h.half_linked hg hl hc (hboth _ hf.touches) hlink1 hend1
  refine Prog.wp_mono (Fat16.wp_rollback hg hfree hl' (.inr hfaulty)
    (h.touches_pair hl (hboth _ hf.touches)) (.inr ⟨h.chained.two_le hf0, hch⟩) hinv) ?_
  exact fun _ _ hs => hs.1

theorem wp_copyLoop (hg : g.Valid) {m₀ : DriverMem} {first : Nat}
    (hcare : Careful ctx g m₀) (hinv : ∀ e, Scratch g m₀.disk e → ctx.inv e) :
    ∀ (n src dst remaining : Nat) (l : List Nat) (m : DriverMem),
      NewChain g m₀.disk l first dst m.disk → (remaining ≠ 0 → l ≠ []) → m₀.Moved m →
      (copyLoop g first n src dst remaining).wp ctx (Copied ctx g m₀ first) m := by
  intro n
  induction n with
  | zero => intro src dst remaining l m h _ hmoved; exact .done h hmoved
  | succ n ih =>
    intro src dst remaining l m h hstart hmoved
    -- every exit but the last gives the chain back
    have hback : ∀ (l' : List Nat) (m' : DriverMem), NewChain g m₀.disk l' first dst m'.disk →
        (do
          rollback g first
          pure none : DiskProg (Option Nat)).wp ctx (Copied ctx g m₀ first) m' := by
      intro l' m' h'
      rw [Prog.wp_bind]
      exact Prog.wp_mono (h'.wp_rollback hg hinv) (fun _ _ hs => .gaveUp hs.1 hs.2)
    unfold copyLoop
    by_cases hrem : remaining = 0
    · rw [if_pos hrem]
      exact .done h hmoved
    · have hl := hstart hrem
      have hlast : dst ∈ l := by
        obtain ⟨_, pre, hpre⟩ := h.ends.resolve_left (fun hn => hl hn.1)
        rw [hpre]; simp
      rw [if_neg hrem, Prog.wp_bind]
      refine Prog.wp_mono (Prog.wp_moved (wp_copySectors g.bpb.sectorsPerCluster 0 remaining m
        (by omega) (fun e he => hinv e (h.fill hg hlast he).scratch))) ?_
      rintro r m1 ⟨hfill, hmv1⟩
      have h1 := h.fill hg hlast hfill
      have hmoved1 := hmoved.trans hmv1
      cases r with
      | none => exact hback l m1 h1
      | some remaining' =>
        by_cases hrem' : remaining' > 0
        · simp only [hrem', if_true, Prog.wp_bind, getNextCluster]
          refine Prog.wp_mono (Prog.wp_moved (wp_readFatEntry src)) ?_
          rintro nextSrc m2 ⟨⟨hd2, _, _⟩, hmv2⟩
          have h2 : NewChain g m₀.disk l first dst m2.disk := by rw [hd2]; exact h1
          have hmoved2 := hmoved1.trans hmv2
          by_cases hdata : g.isDataCluster nextSrc = true
          · simp only [hdata, if_true, Prog.wp_bind]
            refine Prog.wp_mono (Prog.wp_moved (wp_allocCluster hg
              (fun c hc hf e he => hinv e (.of_alloc hg h2 ⟨hc, hf⟩ he)))) ?_
            rintro r m3 ⟨hr, hmv3⟩
            have hmoved3 := hmoved2.trans hmv3
            cases r with
            | none =>
              simp only [Prog.wp_bind]
              refine Prog.wp_mono (h2.wp_noCluster hg hr hinv) ?_
              exact fun _ m4 hs => .gaveUp hs.1 hs.2
            | some nextDst =>
              obtain ⟨hc, hfree, _, hd3⟩ := hr
              simp only [Prog.wp_bind]
              refine Prog.wp_mono (Prog.wp_moved (h2.wp_link hg hcare hinv hl ⟨hc, hfree⟩ hd3
                hmoved3)) ?_
              rintro ok m4 ⟨⟨ht4, hok, hbad⟩, hmv4⟩
              cases ok with
              | true =>
                simp only [if_true]
                exact ih nextSrc nextDst remaining' _ m4 (hok rfl) (fun _ => by simp)
                  (hmoved3.trans hmv4)
              | false =>
                obtain ⟨hfaulty, hw, hlink, hend⟩ := hbad rfl
                have hun := h2.wp_unlink hg hl ⟨hc, hfree⟩ hinv ht4 hfaulty hw hlink hend
                rw [Prog.wp_bind] at hun
                simp only [Bool.false_eq_true, if_false, Prog.wp_bind]
                refine Prog.wp_mono hun (fun _ m5 h5 => Prog.wp_mono h5 ?_)
                exact fun _ _ hs => .gaveUp hs (fun hnf => absurd hfaulty hnf)
          · simp only [hdata, Bool.false_eq_true, if_false]
            exact hback l m2 h2
        · simp only [hrem', if_false]
          exact ih src dst remaining' l m1 h1 (fun h => by omega) hmoved1

/-! ## The whole call -/

/-- How the call ends, from disk `d`. -/
inductive CopyEnd (ctx : Ctx Buffer Sector) (g : Globals) (d : Disk) (srcDir : Nat)
    (lsrc : List Nat) (srcName : CStr) (dstDir : Nat) (ldst : List Nat) (dstName : CStr) :
    Bool → DriverMem → Prop where
  | aborted {m : DriverMem} (hs : Scratch g d m.disk) (hr : ¬ ctx.Faulty → Restored g d m.disk) :
      CopyEnd ctx g d srcDir lsrc srcName dstDir ldst dstName false m
  | copied {m : DriverMem} {p : Slot} {l : List Nat} {first last : Nat} {e : Disk} {name83 : Name}
      (hfound : lookup srcName d (dirSlots g srcDir lsrc) = some p)
      (hfile : (entryAt d p).isDirectory = false)
      (hchain : NewChain g d l first last e) (hformat : formatName dstName = some name83)
      (hnew : lookup dstName d (dirSlots g dstDir ldst) = none ∨ ctx.Faulty)
      (hadd : Added ctx g e dstDir ldst (newEntry name83 first (entryAt d p).fileSize.toNat
        (entryAt d p).attributes) true m) :
      CopyEnd ctx g d srcDir lsrc srcName dstDir ldst dstName true m

section Call

variable {m₀ : DriverMem} {srcDir dstDir fuel : Nat} {lsrc ldst : List Nat}
  {srcName dstName : CStr}

theorem wp_copyContents (hg : g.Valid) (hd : DirOk g m₀.disk dstDir ldst)
    (hfuel : g.getTotalClusters ≤ fuel) (hcare : Careful ctx g m₀) (hroom : Roomy ctx g m₀ dstDir)
    (hall : ∀ e, ctx.inv e) {p : Slot}
    (hfound : lookup srcName m₀.disk (dirSlots g srcDir lsrc) = some p)
    (hfile : (entryAt m₀.disk p).isDirectory = false) {l : List Nat} {first : Nat}
    (h : NewChain g m₀.disk l first first m.disk)
    (hstart : (entryAt m₀.disk p).fileSize.toNat ≠ 0 → l ≠ []) (hmoved : m₀.Moved m) :
    (copyContents g fuel (entryAt m₀.disk p) dstDir dstName first).wp ctx
      (CopyEnd ctx g m₀.disk srcDir lsrc srcName dstDir ldst dstName) m := by
  unfold copyContents
  rw [Prog.wp_bind]
  refine Prog.wp_mono (wp_copyLoop hg hcare (fun e _ => hall e) _ _ first _ l m h hstart hmoved) ?_
  intro r m1 hr
  cases hr with
  | gaveUp hs hrs => exact .aborted hs hrs
  | @done remaining last l' _ h1 hmoved1 =>
    by_cases hrem : remaining = 0
    · simp only [hrem, ne_eq, not_true_eq_false, if_false]
      refine Prog.wp_mono (h1.wp_create hg hd hfuel hroom hall hmoved1) ?_
      intro ok m2 hend
      cases hend with
      | gaveUp hs hrs => exact .aborted hs hrs
      | entered hformat hnew hadd => exact .copied hfound hfile h1 hformat hnew hadd
    · simp only [hrem, ne_eq, not_false_eq_true, if_true, Prog.wp_bind]
      refine Prog.wp_mono (h1.wp_rollback hg (fun e _ => hall e)) ?_
      exact fun _ _ hs => .aborted hs.1 hs.2

theorem wp_copyFileBetweenDirs (hg : g.Valid) (hsrc : DirOk g m.disk srcDir lsrc)
    (hdst : DirOk g m.disk dstDir ldst) (hfuel : g.getTotalClusters ≤ fuel)
    (hcare : Careful ctx g m) (hroom : Roomy ctx g m dstDir) (hall : ∀ e, ctx.inv e) :
    (copyFileBetweenDirs g fuel srcDir srcName dstDir dstName).wp ctx
      (CopyEnd ctx g m.disk srcDir lsrc srcName dstDir ldst dstName) m := by
  have hrefuse : ∀ m' : DriverMem, m'.disk = m.disk →
      CopyEnd ctx g m.disk srcDir lsrc srcName dstDir ldst dstName false m' := by
    intro m' h
    refine .aborted (h ▸ Scratch.refl g m.disk) (fun _ => ?_)
    rw [h]
    exact Restored.refl g m.disk
  unfold copyFileBetweenDirs
  split
  · exact hrefuse m rfl
  cases hs83 : formatName srcName with
  | none => exact hrefuse m rfl
  | some src83 =>
    cases hd83 : formatName dstName with
    | none => exact hrefuse m rfl
    | some dst83 =>
      by_cases hsame : (∀ i, src83 i = dst83 i) ∧ srcDir = dstDir
      · simp only [if_pos hsame]
        exact hrefuse m rfl
      simp only [if_neg hsame, Prog.wp_bind]
      refine Prog.wp_mono (wp_findEntryInternal hg hsrc hfuel srcName) ?_
      rintro r m1 ⟨hd1, hst1, hr⟩
      cases r with
      | none => exact hrefuse m1 hd1
      | some found =>
        rcases hr with hr | ⟨_, hr⟩
        case inr => cases hr
        obtain ⟨p, hp, rfl⟩ := Option.map_eq_some_iff.mp hr.symm
        by_cases hk : (locate m.disk p).entry.isDirectory = true
        · simp only [hk, if_true]
          exact hrefuse m1 hd1
        have hfile : (entryAt m.disk p).isDirectory = false := by simpa [locate] using hk
        simp only [hk, Bool.false_eq_true, if_false, Prog.wp_bind]
        refine Prog.wp_mono (wp_findEntryInternal hg (by rw [hd1]; exact hdst) hfuel dstName) ?_
        rintro r2 m2 ⟨hd2, hst2, _⟩
        have hdisk2 : m2.disk = m.disk := hd2.trans hd1
        have hmoved2 : m.Moved m2 := ⟨by omega, fun _ => hdisk2⟩
        have hempty : NewChain g m.disk [] 0 0 m2.disk := by
          rw [hdisk2]; exact NewChain.empty g m.disk
        cases r2 with
        | some _ => exact hrefuse m2 hdisk2
        | none =>
          by_cases hsize : (locate m.disk p).entry.fileSize.toNat > 0
          · simp only [hsize, if_true]
            by_cases h2 : (locate m.disk p).entry.clusterLow.toNat < 2
            · simp only [h2, if_true]
              exact hrefuse m2 hdisk2
            · simp only [h2, if_false, Prog.wp_bind]
              refine Prog.wp_mono (Prog.wp_moved (wp_allocCluster hg (fun _ _ _ e _ => hall e))) ?_
              rintro r3 m3 ⟨ha, hmv3⟩
              cases ha with
              | full hd3 _ => exact hrefuse m3 (hd3.trans hdisk2)
              | broke hc hfree hb hf =>
                exact .aborted (.of_alloc hg hempty ⟨hc, hfree⟩ hb)
                  (fun hnf => absurd hf.faulty hnf)
              | @took c _ hc hfree _ hd3 =>
                exact wp_copyContents hg hdst hfuel hcare hroom hall hp hfile
                  (hempty.start hg ⟨hc, hfree⟩ hd3) (fun _ => by simp) (hmoved2.trans hmv3)
          · simp only [hsize, if_false]
            exact wp_copyContents hg hdst hfuel hcare hroom hall hp hfile hempty
              (fun h => absurd (Nat.pos_of_ne_zero h) hsize) hmoved2

end Call

end Fat16
end MiniDos
