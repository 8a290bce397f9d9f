import MiniDos.Fat.NameSpec
import MiniDos.Fat.Scratch

/-!
# MiniDos.Fat.WriteSpec

`fat16_write_file_from_dir`, in every context.

* `wp_writeLoop`: the loop builds a new chain that spells the data written so far, or gives
  everything back.
* `wp_writeFileFromDir`: the call gives up with nothing but scratch changed, or makes an entry for
  the new chain, or points the old entry at it and frees the old chain.
-/

namespace MiniDos
namespace Fat16

open BlockIO Chain

variable {ctx : Ctx Buffer Sector} {g : Globals} {m : DriverMem}
variable {l : List Nat} {first last : Nat}

/-! ## The bytes of a chain -/

theorem length_chainSectors (g : Globals) (l : List Nat) :
    (l.flatMap (clusterSectors g)).length = l.length * g.bpb.sectorsPerCluster := by
  induction l with
  | nil => simp
  | cons x l ih =>
    rw [List.flatMap_cons, List.length_append, ih]
    simp [clusterSectors, Nat.add_mul, Nat.add_comm]

theorem Spells.congr {d d' : Disk} {data : Nat → Byte} {n : Nat}
    (h : Spells g d l data n) (hd : ∀ c ∈ l, ∀ lba ∈ clusterSectors g c, d' lba = d lba) :
    Spells g d' l data n := by
  intro k hk
  obtain ⟨lba, hl, hb⟩ := h k hk
  refine ⟨lba, hl, ?_⟩
  obtain ⟨c, hc, hlc⟩ := List.mem_flatMap.mp (List.mem_of_getElem? hl)
  rw [hd c hc lba hlc]
  exact hb

/-- A further cluster, filled from where the chain ended. -/
theorem Spells.snoc {d : Disk} {data : Nat → Byte} {c n : Nat}
    (h : Spells g d l data (l.length * (g.bpb.sectorsPerCluster * 512)))
    (hn : n ≤ g.bpb.sectorsPerCluster * 512)
    (hc : ∀ k < n, (d (g.clusterSector c + k / 512)).get (k % 512) =
      data (l.length * (g.bpb.sectorsPerCluster * 512) + k)) :
    Spells g d (l ++ [c]) data (l.length * (g.bpb.sectorsPerCluster * 512) + n) := by
  intro k hk
  have hlen := length_chainSectors g l
  have hmul : l.length * (g.bpb.sectorsPerCluster * 512) =
      l.length * g.bpb.sectorsPerCluster * 512 := by rw [Nat.mul_assoc]
  rw [List.flatMap_append]
  by_cases hold : k < l.length * (g.bpb.sectorsPerCluster * 512)
  · obtain ⟨lba, hl, hb⟩ := h k hold
    refine ⟨lba, ?_, hb⟩
    rw [List.getElem?_append_left (by omega)]
    exact hl
  · refine ⟨g.clusterSector c + (k - l.length * (g.bpb.sectorsPerCluster * 512)) / 512, ?_, ?_⟩
    · rw [List.getElem?_append_right (by omega), hlen]
      have hi : k / 512 - l.length * g.bpb.sectorsPerCluster =
          (k - l.length * (g.bpb.sectorsPerCluster * 512)) / 512 := by omega
      rw [hi]
      have hlt : (k - l.length * (g.bpb.sectorsPerCluster * 512)) / 512 <
          g.bpb.sectorsPerCluster := by omega
      simp [clusterSectors, hlt]
    · have := hc (k - l.length * (g.bpb.sectorsPerCluster * 512)) (by omega)
      rw [show (k - l.length * (g.bpb.sectorsPerCluster * 512)) % 512 = k % 512 by omega,
        show l.length * (g.bpb.sectorsPerCluster * 512) +
          (k - l.length * (g.bpb.sectorsPerCluster * 512)) = k by omega] at this
      exact this

/-! ## The loop -/

/-- The invariant of the loop, from memory `m₀` on. -/
structure Writing (g : Globals) (m₀ : DriverMem) (data : Nat → Byte) (size : Nat)
    (st : WriteState) (l : List Nat) (m : DriverMem) : Prop where
  chain : NewChain g m₀.disk l st.newFirst st.prev m.disk
  spells : Spells g m.disk l data st.offset
  aligned : st.remaining ≠ 0 → st.offset = l.length * (g.bpb.sectorsPerCluster * 512)
  sizes : st.offset + st.remaining = size
  moved : m₀.Moved m

/-- How the loop ends: with a chain, or with everything given back. -/
inductive Wrote (ctx : Ctx Buffer Sector) (g : Globals) (m₀ : DriverMem) (data : Nat → Byte)
    (size : Nat) : Option WriteState → DriverMem → Prop where
  | done {st : WriteState} {l : List Nat} {m : DriverMem} (h : Writing g m₀ data size st l m) :
      Wrote ctx g m₀ data size (some st) m
  | gaveUp {m : DriverMem} (hs : Scratch g m₀.disk m.disk)
      (hr : ¬ ctx.Faulty → Restored g m₀.disk m.disk) : Wrote ctx g m₀ data size none m

theorem Scratch.of_alloc (hg : g.Valid) {d e e' : Disk} {first last c : Nat}
    (h : NewChain g d l first last e) (hc : FreeCluster g e c) {v : Nat}
    (hb : Between e (fatPut g c v e) e') : Scratch g d e' := by
  have ht := h.touches_snoc (c := c) (Touches.of_between (X := fun x => x = c)
    (S := fun _ => False) hb rfl) ?_ (fun _ h => h.elim)
  · exact .of_list (h.free_snoc hg hc) ht
  · rintro x rfl; simp

theorem NewChain.wp_noCluster (hg : g.Valid) {d e : Disk}
    (h : NewChain g d l first last e) (ha : Alloc ctx g e none m)
    (hinv : ∀ x, Scratch g d x → ctx.inv x) :
    (rollback g first).wp ctx (fun _ m' => Scratch g d m'.disk ∧
      (¬ ctx.Faulty → Restored g d m'.disk)) m := by
  cases ha with
  | full hd _ => exact NewChain.wp_rollback hg (by rw [hd]; exact h) hinv
  | @broke c _ hc hfree hb hf =>
    have hfc : FreeCluster g e c := ⟨hc, hfree⟩
    have hnc := (h.fresh hg hfc).1
    refine Fat16.wp_rollback hg (h.free_snoc hg hfc)
      (fun x hx => List.mem_append_left [c] hx) (.inr hf.faulty)
      (h.touches_snoc (c := c) (Touches.of_between (X := fun x => x = c)
        (S := fun _ => False) hb rfl) ?_ (fun _ h => h.elim)) ?_ hinv
    · rintro x rfl; simp
    · by_cases h0 : first = 0
      · exact .inl ⟨h0, h.first_eq_zero.mp h0⟩
      · refine .inr ⟨h.chained.two_le h0, ?_⟩
        refine ((h.chained.chainOf h0).touches hg hb.touches ?_).from hg
        rintro x hx rfl
        exact hnc hx

theorem NewChain.fill (hg : g.Valid) {d e e' : Disk} {first last c : Nat}
    (h : NewChain g d l first last e) (hc : c ∈ l) (hf : Fills g c e e') :
    NewChain g d l first last e' := by
  refine ⟨h.free, h.touches.trans (hf.mono (fun _ h => h.elim) (fun lba hl => ⟨c, hc, hl⟩)), ?_⟩
  rcases h.ends with hn | ⟨hch, hl⟩
  · exact .inl hn
  · exact .inr ⟨hch.touches hg hf (fun _ _ => not_false), hl⟩

/-- One round behind the allocation and the link: the cluster `c`, now last of the chain `l`, is
filled. -/
theorem wp_fillCluster (hg : g.Valid) {m₀ : DriverMem} {data : Nat → Byte} {size n c : Nat}
    {st : WriteState} {first : Nat}
    (hinv : ∀ e, Scratch g m₀.disk e → ctx.inv e)
    (hchain : NewChain g m₀.disk (l ++ [c]) first c m.disk) (hcl : c ∉ l)
    (hspells : Spells g m.disk l data st.offset)
    (halign : st.offset = l.length * (g.bpb.sectorsPerCluster * 512))
    (hsizes : st.offset + st.remaining = size) (hmoved : m₀.Moved m)
    (ih : ∀ (st : WriteState) (l : List Nat) (m : DriverMem), Writing g m₀ data size st l m →
      (writeLoop g data n st).wp ctx (Wrote ctx g m₀ data size) m) :
    (do
      let r ← writeSectors data (g.clusterSector c) g.bpb.sectorsPerCluster 0 st.offset st.remaining
      match r with
      | none => do
        let _ ← freeClusterChain g first
        pure none
      | some (offset, remaining) => writeLoop g data n ⟨first, c, offset, remaining⟩ :
      DiskProg (Option WriteState)).wp ctx (Wrote ctx g m₀ data size) m := by
  have hcmem : c ∈ l ++ [c] := by simp
  have hfillscr : ∀ e, Fills g c m.disk e → Scratch g m₀.disk e :=
    fun e he => (hchain.fill hg hcmem he).scratch
  have hfirst : first ≠ 0 := fun h0 => by
    have := hchain.first_eq_zero.mp h0
    simp at this
  rw [Prog.wp_bind]
  refine Prog.wp_mono (Prog.wp_moved (wp_writeSectors data _ 0 st.offset st.remaining m
    (by omega) (fun e he => hinv e (hfillscr e he)))) ?_
  rintro r m1 ⟨⟨hfill, hfail, _, hok⟩, hmv⟩
  have hchain' := hchain.fill hg hcmem hfill
  cases r with
  | none =>
    rw [Prog.wp_bind]
    refine Prog.wp_mono (wp_freeScratch hg hchain'.free (fun _ h => h) (.inl rfl) hchain'.touches
      (hchain'.chained.two_le hfirst) ((hchain'.chained.chainOf hfirst).from hg) hinv) ?_
    intro _ m2 h
    exact .gaveUp (.of_list hchain'.free h.1) h.2.2
  | some p =>
    obtain ⟨o', r'⟩ := p
    obtain ⟨ho, hr, hbytes⟩ := hok o' r' rfl
    have hkeep : Spells g m1.disk l data st.offset := by
      refine hspells.congr (fun x hx lba hl => hfill.sec lba (clusterSector_not_fat hl) ?_)
      intro hlc
      have hx2 := (isDataCluster_iff.mp (hchain.free x (List.mem_append_left _ hx)).1).1
      have hc2 := (isDataCluster_iff.mp (hchain.free c hcmem).1).1
      exact hcl (clusterSectors_disjoint hx2 hc2 hl hlc ▸ hx)
    refine ih ⟨first, c, o', r'⟩ (l ++ [c]) m1 ⟨hchain', ?_, ?_, ?_, hmoved.trans hmv⟩
    · show Spells g m1.disk (l ++ [c]) data o'
      rw [ho, halign]
      rw [halign] at hkeep hbytes
      refine hkeep.snoc (by omega) (fun k hk => ?_)
      have := hbytes k hk
      rwa [Nat.zero_add] at this
    · intro hr0
      show o' = (l ++ [c]).length * (g.bpb.sectorsPerCluster * 512)
      have hr0' : r' ≠ 0 := hr0
      rw [List.length_append, List.length_singleton, Nat.add_mul]
      omega
    · show o' + r' = size
      omega

theorem wp_writeLoop (hg : g.Valid) {m₀ : DriverMem} {data : Nat → Byte} {size : Nat}
    (hcare : Careful ctx g m₀) (hinv : ∀ e, Scratch g m₀.disk e → ctx.inv e) :
    ∀ (n : Nat) (st : WriteState) (l : List Nat) (m : DriverMem),
      Writing g m₀ data size st l m →
      (writeLoop g data n st).wp ctx (Wrote ctx g m₀ data size) m := by
  intro n
  induction n with
  | zero => intro st l m h; exact .done h
  | succ n ih =>
    intro st l m h
    unfold writeLoop
    by_cases hrem : st.remaining = 0
    · rw [if_pos hrem]
      exact .done h
    · rw [if_neg hrem, Prog.wp_bind]
      have hspells := h.spells
      have halign := h.aligned hrem
      refine Prog.wp_mono (Prog.wp_moved (wp_allocCluster hg
        (fun c hc hf e he => hinv e (.of_alloc hg h.chain ⟨hc, hf⟩ he)))) ?_
      rintro r m1 ⟨hr, hmv1⟩
      cases r with
      | none =>
        simp only [Prog.wp_bind]
        refine Prog.wp_mono (h.chain.wp_noCluster hg hr hinv) ?_
        exact fun _ m2 hs => .gaveUp hs.1 hs.2
      | some c =>
        obtain ⟨hc, hfree, _, hd1⟩ := hr
        have hfc : FreeCluster g m.disk c := ⟨hc, hfree⟩
        obtain ⟨hcl, _⟩ := h.chain.fresh hg hfc
        have hmoved1 := h.moved.trans hmv1
        have halloc : Touches g (fun x => x = c) (fun _ => False) m.disk m1.disk :=
          .of_fatPut hd1 rfl
        have hspells1 : Spells g m1.disk l data st.offset :=
          hspells.congr (fun x _ lba hl => halloc.sec lba (clusterSector_not_fat hl) not_false)
        by_cases hprev : 2 ≤ st.prev
        · have hl : l ≠ [] := fun he => by have := h.chain.last_lt_two.mpr he; omega
          have hf0 : st.newFirst ≠ 0 := fun h0 => hl (h.chain.first_eq_zero.mp h0)
          simp only [hprev, if_true, Prog.wp_bind, hf0, if_false]
          refine Prog.wp_mono (Prog.wp_moved (h.chain.wp_link hg hcare hinv hl hfc hd1 hmoved1)) ?_
          rintro ok m2 ⟨⟨ht2, hok2, hbad2⟩, hmv2⟩
          cases ok with
          | true =>
            have hspells2 : Spells g m2.disk l data st.offset := hspells.congr
              (fun x _ lba hl => ht2.sec lba (clusterSector_not_fat hl) not_false)
            simp only [if_true]
            exact wp_fillCluster hg hinv (hok2 rfl) hcl hspells2 halign h.sizes
              (hmoved1.trans hmv2) ih
          | false =>
            obtain ⟨hfaulty, _, hlink, hend⟩ := hbad2 rfl
            obtain ⟨l', hl', hch⟩ := h.chain.half_linked hg hl hfc ht2 hlink
              (by rw [hend]; exact endMark_not_data hg (endOfChain_isEndMark g))
            have hfreel := h.chain.free_snoc hg hfc
            simp only [Bool.false_eq_true, if_false, Prog.wp_bind]
            refine Prog.wp_mono (wp_freeScratch hg hfreel hl' (.inr hfaulty)
              (h.chain.touches_pair hl ht2) (h.chain.chained.two_le hf0) hch hinv) ?_
            exact fun _ m3 hs => .gaveUp (.of_list hfreel hs.1) hs.2.2
        · -- the first cluster of the chain
          have hl : l = [] := h.chain.last_lt_two.mp (by omega)
          subst hl
          have hf0 : st.newFirst = 0 := h.chain.first_eq_zero.mpr rfl
          have hchain1 := h.chain.start hg hfc hd1
          simp only [hprev, if_false, hf0, if_true]
          exact wp_fillCluster hg hinv (l := []) hchain1 hcl hspells1 halign h.sizes hmoved1 ih

/-! ## The whole call -/

/-- On disk `e` the new chain `l` from `first` holds all the data. -/
structure FileReady (g : Globals) (d : Disk) (data : Nat → Byte) (size : Nat) (l : List Nat)
    (first : Nat) (e : Disk) : Prop where
  chain : ∃ last, NewChain g d l first last e
  spells : Spells g e l data size

/-- The attributes an overwritten file gets. -/
def keptAttributes (e : DirectoryEntry) : UInt8 := (e.attributes &&& attrReadOnly) ||| attrArchive

def overwrittenEntry (e : DirectoryEntry) (name : Name) (first size : Nat) : DirectoryEntry :=
  updatedEntry e name first size (keptAttributes e)

/-- How the call ends, from disk `d`. -/
inductive WriteEnd (ctx : Ctx Buffer Sector) (g : Globals) (d : Disk) (dir : Nat)
    (ldir : List Nat) (name : CStr) (data : Nat → Byte) (size : Nat) :
    Bool → DriverMem → Prop where
  | aborted {m : DriverMem} (hs : Scratch g d m.disk) (hr : ¬ ctx.Faulty → Restored g d m.disk) :
      WriteEnd ctx g d dir ldir name data size false m
  | created {m : DriverMem} {l : List Nat} {first : Nat} {e : Disk} {name83 : Name}
      (hready : FileReady g d data size l first e) (hformat : formatName name = some name83)
      (hnew : lookup name d (dirSlots g dir ldir) = none ∨ ctx.Faulty)
      (hadd : Added ctx g e dir ldir (newEntry name83 first size attrArchive) true m) :
      WriteEnd ctx g d dir ldir name data size true m
  | overwritten {m : DriverMem} {ok : Bool} {l lo : List Nat} {first : Nat} {e : Disk}
      {name83 : Name} {p : Slot} (hready : FileReady g d data size l first e)
      (hformat : formatName name = some name83)
      (hfound : lookup name d (dirSlots g dir ldir) = some p)
      (hfile : (entryAt d p).isDirectory = false)
      (hfree : (∀ i, (entryAt d p).name i = name83 i) ∨ ctx.Faulty)
      (hold : Chained g d (entryAt d p).clusterLow.toNat lo)
      (ht : Touches g (fun c => c ∈ lo) (fun _ => False)
        (putSlot e p (overwrittenEntry (entryAt d p) name83 first size)) m.disk)
      (hx : ¬ ctx.Faulty → ok = true ∧ m.disk = freeAll g lo
        (putSlot e p (overwrittenEntry (entryAt d p) name83 first size))) :
      WriteEnd ctx g d dir ldir name data size ok m

/-- There is room in the first cluster of the directory, or no fault once the disk was written:
what keeps an unlinked or unzeroed cluster out of the directory. -/
def Roomy (ctx : Ctx Buffer Sector) (g : Globals) (m₀ : DriverMem) (dir : Nat) : Prop :=
  (∀ m, ctx.mayFail m → m.stores = m₀.stores) ∨ dir = 0 ∨
    firstFree m₀.disk (slotsOf (clusterSectors g dir)) ≠ none

theorem firstFree_prefix {d : Disk} {dir t : Nat} {l pre post : List Nat} (h0 : dir ≠ 0)
    (hc : Chained g d dir l) (hl : l = pre ++ t :: post)
    (hfull : firstFree d (dirSlots g dir (pre ++ [t])) = none) :
    firstFree d (slotsOf (clusterSectors g dir)) = none := by
  have hch := hc.chainOf h0
  have hhead : ∃ rest, pre ++ [t] = dir :: rest := by
    cases pre with
    | nil =>
      rw [hl] at hch
      exact ⟨[], by rw [hch.start_eq]; rfl⟩
    | cons x pre =>
      rw [hl] at hch
      exact ⟨pre ++ [t], by rw [hch.start_eq]; rfl⟩
  obtain ⟨rest, hrest⟩ := hhead
  unfold dirSlots dirSectors at hfull
  rw [if_neg h0, hrest, List.flatMap_cons, slotsOf_append, firstFree_append] at hfull
  exact (Option.or_eq_none_iff.mp hfull).1

theorem Scratch.firstFree_head {d e : Disk} (hs : Scratch g d e) {dir : Nat}
    (hc : Chained g d dir l) (h0 : dir ≠ 0)
    (h : firstFree e (slotsOf (clusterSectors g dir)) = none) :
    firstFree d (slotsOf (clusterSectors g dir)) = none := by
  refine List.find?_eq_none.mpr (fun p hp => ?_)
  have hfull := List.find?_eq_none.mp h p hp
  obtain ⟨hp1, hp2⟩ := mem_slotsOf.mp hp
  rwa [hs.entryAt_eq hc (mem_slotsOf.mpr
    ⟨mem_dirSectors.mpr (.inr ⟨h0, dir, hc.head_mem h0, hp1⟩), hp2⟩)] at hfull

section Call

variable {m₀ : DriverMem} {dir fuel : Nat} {ldir : List Nat} {name : CStr} {data : Nat → Byte}
  {size : Nat}

theorem wp_abort (hg : g.Valid)
    (h : NewChain g m₀.disk l first last m.disk) (hinv : ∀ e, Scratch g m₀.disk e → ctx.inv e) :
    (do
      rollback g first
      pure false : DiskProg Bool).wp ctx
      (WriteEnd ctx g m₀.disk dir ldir name data size) m := by
  rw [Prog.wp_bind]
  exact Prog.wp_mono (h.wp_rollback hg hinv) (fun _ _ hs => .aborted hs.1 hs.2)

/-- How making an entry for a new chain ends, from disk `d`: the chain is given back, or the entry
is added to disk `e`. -/
inductive CreateEnd (ctx : Ctx Buffer Sector) (g : Globals) (d e : Disk) (dir : Nat)
    (ldir : List Nat) (name : CStr) (first size : Nat) (attributes : UInt8) :
    Bool → DriverMem → Prop where
  | gaveUp {m : DriverMem} (hs : Scratch g d m.disk) (hr : ¬ ctx.Faulty → Restored g d m.disk) :
      CreateEnd ctx g d e dir ldir name first size attributes false m
  | entered {m : DriverMem} {name83 : Name} (hformat : formatName name = some name83)
      (hnew : lookup name d (dirSlots g dir ldir) = none ∨ ctx.Faulty)
      (hadd : Added ctx g e dir ldir (newEntry name83 first size attributes) true m) :
      CreateEnd ctx g d e dir ldir name first size attributes true m

theorem NewChain.wp_create (hg : g.Valid) (hd : DirOk g m₀.disk dir ldir)
    (hfuel : g.getTotalClusters ≤ fuel) (hroom : Roomy ctx g m₀ dir) (hall : ∀ e, ctx.inv e)
    {attributes : UInt8}
    (h : NewChain g m₀.disk l first last m.disk) (hmoved : m₀.Moved m) :
    (do
      let ok ← createEntry g fuel dir name first size attributes
      if ok then pure true
      else do
        rollback g first
        pure false : DiskProg Bool).wp ctx
      (CreateEnd ctx g m₀.disk m.disk dir ldir name first size attributes) m := by
  have hscr := h.scratch
  have hd1 := hscr.dirOk hg hd
  have hback : ∀ m' : DriverMem, m'.disk = m.disk →
      (do
        rollback g first
        pure false : DiskProg Bool).wp ctx
        (CreateEnd ctx g m₀.disk m.disk dir ldir name first size attributes) m' := by
    intro m' hm'
    rw [Prog.wp_bind]
    refine Prog.wp_mono (NewChain.wp_rollback hg (hm' ▸ h) (fun e _ => hall e)) ?_
    exact fun _ _ hs => .gaveUp hs.1 hs.2
  rw [Prog.wp_bind]
  refine Prog.wp_mono (Prog.wp_moved (wp_createEntry hg hall hd1 hfuel)) ?_
  rintro ok m1 ⟨hok, hmv⟩
  rcases hok with ⟨rfl, hdisk⟩ | ⟨name83, hformat, hnew, hadd⟩
  · exact hback m1 hdisk
  · rw [hscr.lookup_eq hd.chained] at hnew
    cases ok with
    | true => exact .entered hformat hnew hadd
    | false =>
      cases hadd with
      | full hdisk => exact hback m1 hdisk
      | failed h0 hl hfull hf =>
        -- a fault while the directory grew: then nothing had been written before
        have hprefix := firstFree_prefix h0 hd1.chained hl hfull
        rcases hroom with hquiet | hz | hroom
        · obtain ⟨m', hm', hst⟩ := hf
          have hs := hquiet m' hm'
          have h1 := hmoved.1
          have h2 := hmv.1
          have hdisk1 : m1.disk = m₀.disk := (hmoved.trans hmv).2 (by omega)
          have hdisk : m.disk = m₀.disk := hmoved.2 (by omega)
          exact hback m1 (hdisk1.trans hdisk.symm)
        · exact absurd hz h0
        · exact absurd (hscr.firstFree_head hd.chained h0 hprefix) hroom

/-- The last phase of a write to a name that exists. -/
theorem wp_commitOld (hg : g.Valid) (hd : DirOk g m₀.disk dir ldir)
    (hfuel : g.getTotalClusters ≤ fuel)
    (hinv : ∀ e, Scratch g m₀.disk e → ctx.inv e) {p : Slot}
    (hfound : lookup name m₀.disk (dirSlots g dir ldir) = some p)
    (hfile : (entryAt m₀.disk p).isDirectory = false)
    (hold : isDotName name = false → ∃ lo, Chained g m₀.disk (entryAt m₀.disk p).clusterLow.toNat lo)
    (hchain : NewChain g m₀.disk l first last m.disk) (hspells : Spells g m.disk l data size)
    (hinvU : ∀ lo name83 e, Chained g m₀.disk (entryAt m₀.disk p).clusterLow.toNat lo →
      formatName name = some name83 →
      ((∀ i, (entryAt m₀.disk p).name i = name83 i) ∨ ctx.Faulty) → Touches g (fun c => c ∈ lo) (fun _ => False)
        (putSlot m.disk p (overwrittenEntry (entryAt m₀.disk p) name83 first size)) e →
      ctx.inv e) :
    (do
      let ok ← updateEntry g fuel dir name name first size (keptAttributes (entryAt m₀.disk p))
      if ok then
        if 2 ≤ (entryAt m₀.disk p).clusterLow.toNat ∧
            (entryAt m₀.disk p).clusterLow.toNat ≠ first then
          freeClusterChain g (entryAt m₀.disk p).clusterLow.toNat
        else pure true
      else do
        rollback g first
        pure false : DiskProg Bool).wp ctx
      (WriteEnd ctx g m₀.disk dir ldir name data size) m := by
  have hscr := hchain.scratch
  have hd1 := hscr.dirOk hg hd
  have hlook : lookup name m.disk (dirSlots g dir ldir) = some p := by
    rw [hscr.lookup_eq hd.chained, hfound]
  have hentry : entryAt m.disk p = entryAt m₀.disk p := hscr.entryAt_eq hd.chained (lookup_mem hfound)
  -- the name is looked up again unless the entry has it already, and would be found
  have hsame : ∀ name83 : Name, ((∀ i, (entryAt m.disk p).name i = name83 i) ∨
      lookup name m.disk (dirSlots g dir ldir) = none ∨ ctx.Faulty) →
      (∀ i, (entryAt m₀.disk p).name i = name83 i) ∨ ctx.Faulty := by
    intro name83 hfree
    rw [hentry, hlook] at hfree
    rcases hfree with h | h | h
    · exact .inl h
    · cases h
    · exact .inr h
  rw [Prog.wp_bind]
  refine Prog.wp_mono (wp_updateEntry hg hd1 hfuel ?_) ?_
  · intro p' name83 hp' hformat hfree
    rw [hlook] at hp'
    obtain rfl := Option.some.inj hp'
    obtain ⟨lo, hlo⟩ := hold (formatName_not_dot hformat)
    have := hinvU lo name83 _ hlo hformat (hsame name83 hfree) .refl
    rwa [hentry]
  · rintro ok m1 (⟨rfl, hdisk⟩ | ⟨rfl, p', name83, hu⟩)
    · exact wp_abort hg (hdisk ▸ hchain) hinv
    · have hp' := hu.found
      rw [hlook] at hp'
      obtain rfl := Option.some.inj hp'
      have hsame := hsame name83 hu.free
      have hdisk := hu.disk
      rw [hentry] at hdisk
      have hready : FileReady g m₀.disk data size l first m.disk := ⟨⟨last, hchain⟩, hspells⟩
      obtain ⟨lo, hold⟩ := hold (formatName_not_dot hu.format)
      simp only [if_true]
      by_cases h2 : 2 ≤ (entryAt m₀.disk p).clusterLow.toNat
      · -- the old chain was allocated before, so it is not the new one
        have hmem := hold.head_mem (show (entryAt m₀.disk p).clusterLow.toNat ≠ 0 by omega)
        have hne : (entryAt m₀.disk p).clusterLow.toNat ≠ first := by
          intro he
          have hf0 : first ≠ 0 := by omega
          have hfl := hchain.chained.head_mem hf0
          exact hold.ne_zero _ hmem (he ▸ (hchain.free _ hfl).2)
        have hnf : ¬ g.isFatSector p.1 := dirSector_not_fat (mem_slotsOf.mp (lookup_mem hfound)).1
        have hchainOld : ChainFrom g m1.disk (entryAt m₀.disk p).clusterLow.toNat lo := by
          rw [hdisk]
          have h1 := (hscr.chained hg hold).chainOf (by omega)
          exact (h1.touches hg (putSlot_touches hnf _) (fun _ _ => not_false)).from hg
        rw [if_pos ⟨h2, hne⟩]
        refine Prog.wp_mono (wp_freeClusterChain hg h2 hchainOld (fun e he => ?_)) ?_
        · rw [hdisk] at he
          exact hinvU lo name83 e hold hu.format hsame he
        · intro ok m2 hfr
          rw [hdisk] at hfr
          exact .overwritten hready hu.format hfound hfile hsame hold hfr.touches hfr.exact
      · have hz : (entryAt m₀.disk p).clusterLow.toNat = 0 := by
          by_cases h0 : (entryAt m₀.disk p).clusterLow.toNat = 0
          · exact h0
          · exact absurd (hold.two_le h0) h2
        have hnil : lo = [] := by rw [hz] at hold; exact hold.nil_of_zero
        subst hnil
        rw [if_neg (fun h => h2 h.1)]
        refine .overwritten hready hu.format hfound hfile hsame hold ?_ (fun _ => ⟨rfl, hdisk⟩)
        rw [hdisk]
        exact .refl

/-- `fat16_write_file_from_dir` on a directory whose slots are known. -/
theorem wp_writeFileFromDir (hg : g.Valid) (hd : DirOk g m.disk dir ldir)
    (hfuel : g.getTotalClusters ≤ fuel) (hcare : Careful ctx g m) (hroom : Roomy ctx g m dir)
    (hold : ∀ p, isDotName name = false → lookup name m.disk (dirSlots g dir ldir) = some p →
      ∃ lo, Chained g m.disk (entryAt m.disk p).clusterLow.toNat lo)
    (buffer : Option (Nat → Byte)) (sz : Int)
    (hinv : ∀ e, Scratch g m.disk e → ctx.inv e)
    (hall : (lookup name m.disk (dirSlots g dir ldir) = none ∨ ctx.Faulty) → ∀ e, ctx.inv e)
    (hinvU : ∀ p lo l first e name83 e', FileReady g m.disk (buffer.getD (fun _ => 0)) sz.toNat l
        first e → lookup name m.disk (dirSlots g dir ldir) = some p →
      Chained g m.disk (entryAt m.disk p).clusterLow.toNat lo → formatName name = some name83 →
      ((∀ i, (entryAt m.disk p).name i = name83 i) ∨ ctx.Faulty) → Touches g (fun c => c ∈ lo) (fun _ => False)
        (putSlot e p (overwrittenEntry (entryAt m.disk p) name83 first sz.toNat)) e' →
      ctx.inv e') :
    (writeFileFromDir g fuel dir name buffer sz).wp ctx
      (WriteEnd ctx g m.disk dir ldir name (buffer.getD (fun _ => 0)) sz.toNat) m := by
  have hrefuse : ∀ m' : DriverMem, m'.disk = m.disk →
      WriteEnd ctx g m.disk dir ldir name (buffer.getD (fun _ => 0)) sz.toNat false m' := by
    intro m' h
    refine .aborted (h ▸ Scratch.refl g m.disk) (fun _ => ?_)
    rw [h]
    exact Restored.refl g m.disk
  unfold writeFileFromDir
  split
  · exact hrefuse m rfl
  split
  · exact hrefuse m rfl
  split
  · exact hrefuse m rfl
  rw [Prog.wp_bind]
  refine Prog.wp_mono (wp_findEntryInternal hg hd hfuel name) ?_
  rintro existing m1 ⟨hd1, hst1, hr⟩
  have hmv1 : m.Moved m1 := ⟨by omega, fun _ => hd1⟩
  by_cases hdirq : (existing.any (fun found => found.entry.isDirectory)) = true
  · rw [if_pos hdirq]
    exact hrefuse m1 hd1
  · rw [if_neg hdirq]
    simp only [Prog.wp_bind]
    have hstart : Writing g m (buffer.getD (fun _ => 0)) sz.toNat ⟨0, 0, 0, sz.toNat⟩ [] m1 := by
      refine ⟨?_, fun k hk => absurd hk (Nat.not_lt_zero k), fun _ => by simp, by simp, hmv1⟩
      rw [hd1]
      exact NewChain.empty g m.disk
    refine Prog.wp_mono (wp_writeLoop hg hcare hinv _ _ [] m1 hstart) ?_
    intro r m2 hw
    cases hw with
    | gaveUp hs hrs => exact .aborted hs hrs
    | @done st l _ h =>
      by_cases hrem : st.remaining = 0
      · have hoff : st.offset = sz.toNat := by
          have := h.sizes
          omega
        have hspells := h.spells
        rw [hoff] at hspells
        simp only [hrem, ne_eq, not_true_eq_false, if_false]
        cases existing with
        | none =>
          have hnew : lookup name m.disk (dirSlots g dir ldir) = none ∨ ctx.Faulty := by
            rcases hr with hr | ⟨hf, _⟩
            · exact .inl (Option.map_eq_none_iff.mp hr.symm)
            · exact .inr hf.faulty
          simp only [commitEntry, Option.map_none, Option.getD_none, false_and, if_false,
            show ¬ 2 ≤ 0 by decide]
          refine Prog.wp_mono (h.chain.wp_create hg hd hfuel hroom (hall hnew) h.moved) ?_
          intro ok m3 hend
          cases hend with
          | gaveUp hs hrs => exact .aborted hs hrs
          | entered hformat _ hadd => exact .created ⟨⟨_, h.chain⟩, hspells⟩ hformat hnew hadd
        | some found =>
          rcases hr with hr | ⟨_, hr⟩
          · obtain ⟨p, hp, rfl⟩ := Option.map_eq_some_iff.mp hr.symm
            have hfile : (entryAt m.disk p).isDirectory = false := by
              simpa [locate] using hdirq
            exact wp_commitOld hg hd hfuel hinv hp hfile (fun hn => hold p hn hp) h.chain hspells
              (fun lo name83 e' hlo hf hs ht => hinvU p lo l st.newFirst m2.disk name83 e'
                ⟨⟨_, h.chain⟩, hspells⟩ hp hlo hf hs ht)
          · cases hr
      · simp only [hrem, ne_eq, not_false_eq_true, if_true]
        exact wp_abort hg h.chain hinv

end Call

end Fat16
end MiniDos
