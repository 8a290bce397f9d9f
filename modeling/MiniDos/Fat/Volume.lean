import MiniDos.Fat.DirSpec

/-!
# MiniDos.Fat.Volume

Well-formed volumes, and the changes of the disk that keep a volume well-formed.

`WellFormed` speaks of the directories that can be reached from the root. To show it for a
changed disk one would have to follow every path again, so the proofs go through an `Inventory`:
a set of directories closed under subdirectories, with the chain of every cluster number in use.
It may hold more than what can be reached. A volume is well-formed exactly when it has one
(`Inventory.wellFormed`, `WellFormed.inventory`), and each kind of change maps inventories to
inventories:

* `Inventory.frame`: free clusters and sectors of no directory change;
* `Inventory.erase`, `Inventory.insert`, `Inventory.rename`: one slot changes;
* `Inventory.extend`: a directory gets one more cluster.
-/

namespace MiniDos
namespace Fat16

open BlockIO Chain

variable {g : Globals} {d d' : Disk}
variable {c : Nat} {l : List Nat}

/-- `cluster_low`, the first cluster of the entry's chain. -/
def DirectoryEntry.first (e : DirectoryEntry) : Nat := e.clusterLow.toNat

/-- The directories of a volume: the root and what its live entries lead to. -/
inductive IsDir (g : Globals) (d : Disk) : Nat → Prop where
  | root : IsDir g d 0
  | sub {c : Nat} {l : List Nat} {p : Slot} (h : IsDir g d c) (hc : Chained g d c l)
      (hp : p ∈ dirSlots g c l) (hlive : (entryAt d p).isLive = true)
      (hdot : (entryAt d p).isDot = false) (hdir : (entryAt d p).isDirectory = true) :
      IsDir g d (entryAt d p).first

/-- The slot of a live entry other than `.` and `..`. -/
def LiveSlot (g : Globals) (d : Disk) (p : Slot) : Prop :=
  ∃ c l, IsDir g d c ∧ Chained g d c l ∧ p ∈ dirSlots g c l ∧ (entryAt d p).isLive = true ∧
    (entryAt d p).isDot = false

/-- Directories are end-marked, live entries have chains of allocated clusters that end in an end
mark, and no two of these chains meet. -/
structure WellFormed (g : Globals) (d : Disk) : Prop where
  endMarked : ∀ c l, IsDir g d c → Chained g d c l → EndMarked d (dirSlots g c l)
  chained : ∀ p, LiveSlot g d p → ∃ l, Chained g d (entryAt d p).first l
  disjoint : ∀ p q lp lq, LiveSlot g d p → LiveSlot g d q → p ≠ q →
    Chained g d (entryAt d p).first lp → Chained g d (entryAt d q).first lq → ∀ x ∈ lp, x ∉ lq

/-! ## Inventories -/

/-- The slot of a live entry, not `.` or `..`, in one of the directories `D`. -/
def Held (g : Globals) (d : Disk) (D : Nat → Prop) (ch : Nat → List Nat) (p : Slot) : Prop :=
  ∃ c, D c ∧ p ∈ dirSlots g c (ch c) ∧ (entryAt d p).isLive = true ∧ (entryAt d p).isDot = false

/-- A cluster number in use: of a directory or of an entry. -/
def Head (g : Globals) (d : Disk) (D : Nat → Prop) (ch : Nat → List Nat) (h : Nat) : Prop :=
  h ≠ 0 ∧ (D h ∨ ∃ p, Held g d D ch p ∧ (entryAt d p).first = h)

structure Inventory (g : Globals) (d : Disk) (D : Nat → Prop) (ch : Nat → List Nat) : Prop where
  root : D 0
  dir : ∀ c, D c → DirOk g d c (ch c)
  closed : ∀ p, Held g d D ch p → (entryAt d p).isDirectory = true → D (entryAt d p).first
  chain : ∀ p, Held g d D ch p → Chained g d (entryAt d p).first (ch (entryAt d p).first)
  inj : ∀ p q, Held g d D ch p → Held g d D ch q → (entryAt d p).first = (entryAt d q).first →
    (entryAt d p).first ≠ 0 → p = q
  disj : ∀ h h', Head g d D ch h → Head g d D ch h' → h ≠ h' → ∀ x ∈ ch h, x ∉ ch h'

namespace Inventory

variable {D : Nat → Prop} {ch : Nat → List Nat}

theorem head_chained (hi : Inventory g d D ch) {h : Nat} (hh : Head g d D ch h) :
    Chained g d h (ch h) := by
  rcases hh with ⟨_, hD | ⟨p, hp, rfl⟩⟩
  · exact (hi.dir h hD).chained
  · exact hi.chain p hp

theorem head_of_dir (hc : D c) (h0 : c ≠ 0) : Head g d D ch c := ⟨h0, .inl hc⟩

theorem free_not_mem (hi : Inventory g d D ch) {h x : Nat} (hh : Head g d D ch h)
    (hx : fatGet g d x = 0) : x ∉ ch h :=
  fun hm => (hi.head_chained hh).ne_zero x hm hx

theorem dir_sector_cases {c lba : Nat} (hc : D c) (hl : lba ∈ dirSectors g c (ch c)) :
    lba ∈ rootSectors g ∨ ∃ h, Head g d D ch h ∧ ∃ x ∈ ch h, lba ∈ clusterSectors g x := by
  rcases mem_dirSectors.mp hl with ⟨_, hl⟩ | ⟨h0, x, hx, hl⟩
  · exact .inl hl
  · exact .inr ⟨c, head_of_dir hc h0, x, hx, hl⟩

theorem root_not_cluster {lba x : Nat} (h : lba ∈ rootSectors g) : lba ∉ clusterSectors g x := by
  intro hx
  rw [mem_rootSectors] at h
  rw [mem_clusterSectors] at hx
  unfold Globals.clusterSector at hx
  omega

theorem dir_sector_not_cluster (hi : Inventory g d D ch) {c lba x : Nat} (hc : D c)
    (hl : lba ∈ dirSectors g c (ch c)) (hx : g.isDataCluster x = true)
    (hfree : ∀ h, Head g d D ch h → x ∉ ch h) : lba ∉ clusterSectors g x := by
  intro hlx
  rcases dir_sector_cases (d := d) hc hl with hr | ⟨h, hh, y, hy, hly⟩
  · exact root_not_cluster hr hlx
  · have hyd := (hi.head_chained hh).data_of_mem y hy
    have := clusterSectors_disjoint (isDataCluster_iff.mp hx).1 (isDataCluster_iff.mp hyd).1 hlx hly
    exact hfree h hh (this ▸ hy)

theorem slot_unique (hi : Inventory g d D ch) {c c' : Nat} {p : Slot} (hc : D c) (hc' : D c')
    (hp : p ∈ dirSlots g c (ch c)) (hp' : p ∈ dirSlots g c' (ch c')) : c = c' := by
  have hl := (mem_slotsOf.mp hp).1
  have hl' := (mem_slotsOf.mp hp').1
  rcases mem_dirSectors.mp hl with ⟨h0, hr⟩ | ⟨h0, x, hx, hlx⟩
  · rcases mem_dirSectors.mp hl' with ⟨h0', _⟩ | ⟨_, y, _, hly⟩
    · rw [h0, h0']
    · exact absurd hly (root_not_cluster hr)
  · rcases mem_dirSectors.mp hl' with ⟨_, hr⟩ | ⟨h0', y, hy, hly⟩
    · exact absurd hlx (root_not_cluster hr)
    · by_cases he : c = c'
      · exact he
      · have hxd := (hi.dir c hc).chained.data_of_mem x hx
        have hyd := (hi.dir c' hc').chained.data_of_mem y hy
        have hxy := clusterSectors_disjoint (isDataCluster_iff.mp hxd).1
          (isDataCluster_iff.mp hyd).1 hlx hly
        exact absurd (hxy ▸ hy) (hi.disj c c' (head_of_dir hc h0) (head_of_dir hc' h0') he x hx)

theorem slot_not_in_chain (hi : Inventory g d D ch) {c f : Nat} (hc : D c) {p : Slot}
    (hp : p ∈ dirSlots g c (ch c)) (hf : Head g d D ch f) (hne : f ≠ c) :
    ∀ y ∈ ch f, ∀ lba ∈ clusterSectors g y, lba ≠ p.1 := by
  rintro y hy lba hlba rfl
  have hyd := (hi.head_chained hf).data_of_mem y hy
  rcases mem_dirSectors.mp (mem_slotsOf.mp hp).1 with ⟨_, hr⟩ | ⟨h0, z, hz, hlz⟩
  · exact root_not_cluster hr hlba
  · have hcH : Head g d D ch c := head_of_dir hc h0
    have hzd := (hi.head_chained hcH).data_of_mem z hz
    have := clusterSectors_disjoint (isDataCluster_iff.mp hyd).1 (isDataCluster_iff.mp hzd).1
      hlba hlz
    exact hi.disj f c hf hcH hne y hy (this ▸ hz)

/-! ### Inventories and well-formed volumes -/

theorem isDir (hg : g.Valid) (hi : Inventory g d D ch) (h : IsDir g d c) : D c := by
  induction h with
  | root => exact hi.root
  | @sub c l p _ hc hp hlive hdot hdir ih =>
    have hl := hc.unique hg (hi.dir c ih).chained
    subst hl
    exact hi.closed p ⟨c, ih, hp, hlive, hdot⟩ hdir

theorem held (hg : g.Valid) (hi : Inventory g d D ch) {p : Slot} (h : LiveSlot g d p) :
    Held g d D ch p := by
  obtain ⟨c, l, hc, hl, hp, hlive, hdot⟩ := h
  have hD := hi.isDir hg hc
  have := hl.unique hg (hi.dir c hD).chained
  subst this
  exact ⟨c, hD, hp, hlive, hdot⟩

theorem apart (hg : g.Valid) (hi : Inventory g d D ch) {p q : Slot} {lp lq : List Nat}
    (hp : Held g d D ch p) (hq : Held g d D ch q) (hne : p ≠ q)
    (hlp : Chained g d (entryAt d p).first lp) (hlq : Chained g d (entryAt d q).first lq) :
    ∀ x ∈ lp, x ∉ lq := by
  intro x hx
  have h1 := hlp.unique hg (hi.chain p hp)
  have h2 := hlq.unique hg (hi.chain q hq)
  subst h1
  subst h2
  by_cases hp0 : (entryAt d p).first = 0
  · rw [hp0] at hlp hx
    rw [hlp.nil_of_zero] at hx
    cases hx
  · by_cases hq0 : (entryAt d q).first = 0
    · rw [hq0] at hlq ⊢
      rw [hlq.nil_of_zero]
      exact List.not_mem_nil
    · refine hi.disj _ _ ⟨hp0, .inr ⟨p, hp, rfl⟩⟩ ⟨hq0, .inr ⟨q, hq, rfl⟩⟩ ?_ x hx
      exact fun he => hne (hi.inj p q hp hq he hp0)

theorem wellFormed (hg : g.Valid) (hi : Inventory g d D ch) : WellFormed g d := by
  refine ⟨fun c l hc hl => ?_, fun p hp => ⟨_, hi.chain p (hi.held hg hp)⟩,
    fun p q lp lq hp hq hne hlp hlq => hi.apart hg (hi.held hg hp) (hi.held hg hq) hne hlp hlq⟩
  have hD := hi.isDir hg hc
  have := hl.unique hg (hi.dir c hD).chained
  subst this
  exact (hi.dir c hD).endMarked

end Inventory

noncomputable def chainOf (g : Globals) (d : Disk) (c : Nat) : List Nat :=
  open Classical in if h : ∃ l, Chained g d c l then Classical.choose h else []

theorem chainOf_eq (hg : g.Valid) (h : Chained g d c l) :
    chainOf g d c = l := by
  unfold chainOf
  rw [dif_pos ⟨l, h⟩]
  exact Chained.unique hg (Classical.choose_spec (⟨l, h⟩ : ∃ l, Chained g d c l)) h

namespace WellFormed

theorem dir_chained (h : WellFormed g d) (hc : IsDir g d c) : ∃ l, Chained g d c l := by
  cases hc with
  | root => exact ⟨[], .inl ⟨rfl, rfl⟩⟩
  | sub h' hc hp hlive hdot _ => exact h.chained _ ⟨_, _, h', hc, hp, hlive, hdot⟩

theorem liveSlot_of_held (h : WellFormed g d) (hg : g.Valid) {p : Slot}
    (hp : Held g d (IsDir g d) (chainOf g d) p) : LiveSlot g d p := by
  obtain ⟨c, hc, hps, hlive, hdot⟩ := hp
  obtain ⟨l, hl⟩ := h.dir_chained hc
  rw [chainOf_eq hg hl] at hps
  exact ⟨c, l, hc, hl, hps, hlive, hdot⟩

theorem inventory (hg : g.Valid) (h : WellFormed g d) :
    Inventory g d (IsDir g d) (chainOf g d) := by
  have hchain : ∀ p, LiveSlot g d p →
      Chained g d (entryAt d p).first (chainOf g d (entryAt d p).first) := by
    intro p hp
    obtain ⟨l, hl⟩ := h.chained p hp
    rw [chainOf_eq hg hl]
    exact hl
  -- a directory other than the root is the first cluster of a live slot
  have howner : ∀ c, Head g d (IsDir g d) (chainOf g d) c →
      ∃ p, LiveSlot g d p ∧ (entryAt d p).first = c := by
    rintro c ⟨h0, hD | ⟨p, hp, rfl⟩⟩
    · cases hD with
      | root => exact absurd rfl h0
      | sub h' hc hp hlive hdot _ => exact ⟨_, ⟨_, _, h', hc, hp, hlive, hdot⟩, rfl⟩
    · exact ⟨p, h.liveSlot_of_held hg hp, rfl⟩
  refine ⟨.root, fun c hc => ?_, fun p hp hdir => ?_, fun p hp => ?_, fun p q hp hq he h0 => ?_, ?_⟩
  · obtain ⟨l, hl⟩ := h.dir_chained hc
    rw [chainOf_eq hg hl]
    exact ⟨hl, h.endMarked c l hc hl⟩
  · obtain ⟨c, l, hc, hl, hps, hlive, hdot⟩ := h.liveSlot_of_held hg hp
    exact .sub hc hl hps hlive hdot hdir
  · exact hchain p (h.liveSlot_of_held hg hp)
  · have hlp := h.liveSlot_of_held hg hp
    have hlq := h.liveSlot_of_held hg hq
    by_cases hne : p = q
    · exact hne
    · have hcp := hchain p hlp
      have hmem := hcp.head_mem h0
      exact absurd (he ▸ hmem) (h.disjoint p q _ _ hlp hlq hne hcp (hchain q hlq) _ hmem)
  · intro c c' hc hc' hne x hx
    obtain ⟨p, hp, rfl⟩ := howner c hc
    obtain ⟨q, hq, rfl⟩ := howner c' hc'
    have hpq : p ≠ q := fun he => hne (by rw [he])
    exact h.disjoint p q _ _ hp hq hpq (hchain p hp) (hchain q hq) x hx

end WellFormed

/-! ## Changes that keep the inventory -/

namespace Inventory

variable {D : Nat → Prop} {ch : Nat → List Nat}

theorem slot_lt {p : Slot} (h : p ∈ dirSlots g c l) : p.2 < 16 :=
  (mem_slotsOf.mp h).2

theorem slot_not_fat {p : Slot} (h : p ∈ dirSlots g c l) :
    ¬ g.isFatSector p.1 := dirSector_not_fat (mem_slotsOf.mp h).1

/-- Table entries outside all chains and sectors outside all directories may change. -/
theorem frame (hg : g.Valid) (hi : Inventory g d D ch) {X S : Nat → Prop}
    (ht : Touches g X S d d') (hX : ∀ h, Head g d D ch h → ∀ x ∈ ch h, ¬ X x)
    (hS : ∀ c, D c → ∀ lba ∈ dirSectors g c (ch c), ¬ S lba) :
    Inventory g d' D ch ∧ ∀ h, Head g d' D ch h → Head g d D ch h := by
  have hent : ∀ c, D c → ∀ p ∈ dirSlots g c (ch c), entryAt d' p = entryAt d p := by
    intro c hc p hp
    have hl := (mem_slotsOf.mp hp).1
    exact entryAt_congr (ht.sec p.1 (dirSector_not_fat hl) (hS c hc p.1 hl))
  have hheld : ∀ p, Held g d' D ch p → Held g d D ch p ∧ entryAt d' p = entryAt d p := by
    rintro p ⟨c, hc, hp, hlive, hdot⟩
    rw [hent c hc p hp] at hlive hdot
    exact ⟨⟨c, hc, hp, hlive, hdot⟩, hent c hc p hp⟩
  have hhead : ∀ h, Head g d' D ch h → Head g d D ch h := by
    rintro h ⟨h0, hD | ⟨p, hp, rfl⟩⟩
    · exact ⟨h0, .inl hD⟩
    · obtain ⟨hp', he⟩ := hheld p hp
      exact ⟨h0, .inr ⟨p, hp', by rw [he]⟩⟩
  have hchain : ∀ h, h = 0 ∨ Head g d D ch h → Chained g d h (ch h) → Chained g d' h (ch h) := by
    rintro h (h0 | hh) hc
    · subst h0
      exact .inl ⟨rfl, hc.nil_of_zero⟩
    · exact hc.touches hg ht (hX h hh)
  refine ⟨⟨hi.root, fun c hc => ⟨?_, ?_⟩, fun p hp hdir => ?_, fun p hp => ?_, ?_, ?_⟩, hhead⟩
  · refine hchain c ?_ (hi.dir c hc).chained
    by_cases h0 : c = 0
    · exact .inl h0
    · exact .inr (head_of_dir hc h0)
  · exact (hi.dir c hc).endMarked.congr (hent c hc)
  · obtain ⟨hp', he⟩ := hheld p hp
    rw [he] at hdir ⊢
    exact hi.closed p hp' hdir
  · obtain ⟨hp', he⟩ := hheld p hp
    rw [he]
    refine hchain _ ?_ (hi.chain p hp')
    by_cases h0 : (entryAt d p).first = 0
    · exact .inl h0
    · exact .inr ⟨h0, .inr ⟨p, hp', rfl⟩⟩
  · intro p q hp hq he h0
    obtain ⟨hp', hep⟩ := hheld p hp
    obtain ⟨hq', heq⟩ := hheld q hq
    rw [hep, heq] at he
    rw [hep] at h0
    exact hi.inj p q hp' hq' he h0
  · intro h h' hh hh'
    exact hi.disj h h' (hhead h hh) (hhead h' hh')

section PutSlot

variable {c₀ : Nat} {p : Slot} {e : DirectoryEntry}

theorem chained_put (hg : g.Valid) (hp : p ∈ dirSlots g c₀ (ch c₀))
    (h : Chained g d c l) : Chained g (putSlot d p e) c l :=
  h.touches hg (putSlot_touches (slot_not_fat hp) e) (fun _ _ => not_false)

theorem dirOk_put (hg : g.Valid) (hi : Inventory g d D ch) (hc₀ : D c₀)
    (hp : p ∈ dirSlots g c₀ (ch c₀)) (hend : EndMarked (putSlot d p e) (dirSlots g c₀ (ch c₀))) :
    ∀ c, D c → DirOk g (putSlot d p e) c (ch c) := by
  intro c hc
  refine ⟨chained_put hg hp (hi.dir c hc).chained, ?_⟩
  by_cases he : c = c₀
  · subst he; exact hend
  · refine (hi.dir c hc).endMarked.congr (fun q hq => entryAt_putSlot_ne (slot_lt hq) ?_ e)
    rintro rfl
    exact he (hi.slot_unique hc hc₀ hq hp)

theorem endMarked_put (hg : g.Valid) (hi : Inventory g d D ch) (hc₀ : D c₀)
    (hp : p ∈ dirSlots g c₀ (ch c₀)) (hold : (entryAt d p).isEnd = false)
    (he : e.isEnd = false) : EndMarked (putSlot d p e) (dirSlots g c₀ (ch c₀)) := by
  have hm := (hi.dir c₀ hc₀).endMarked
  have hn := (hi.dir c₀ hc₀).chained.slots_nodup hg
  have hlt : ∀ q ∈ dirSlots g c₀ (ch c₀), q.2 < 16 := fun q hq => slot_lt hq
  obtain ⟨pre, post, hsplit⟩ := List.append_of_mem hp
  rw [hsplit] at hm hn hlt ⊢
  exact hm.put hlt hn (hm.before_live hold) he

/-- The entry of a slot is replaced by one with the same chain. -/
theorem rename (hg : g.Valid) (hi : Inventory g d D ch) (hp : Held g d D ch p)
    (hlive : e.isLive = true) (hfirst : e.first = (entryAt d p).first)
    (hdir : e.isDirectory = (entryAt d p).isDirectory) : Inventory g (putSlot d p e) D ch := by
  obtain ⟨c₀, hc₀, hps, hl, hd⟩ := hp
  have hend := endMarked_put (e := e) hg hi hc₀ hps (DirectoryEntry.isLive_iff.mp hl).1
    (DirectoryEntry.isLive_iff.mp hlive).1
  have hself := entryAt_putSlot (d := d) (slot_lt hps) e
  have hheld : ∀ q, Held g (putSlot d p e) D ch q → Held g d D ch q ∧
      (entryAt (putSlot d p e) q).first = (entryAt d q).first ∧
      (entryAt (putSlot d p e) q).isDirectory = (entryAt d q).isDirectory := by
    rintro q ⟨c, hc, hq, hql, hqd⟩
    by_cases he : q = p
    · subst he
      rw [hself]
      exact ⟨⟨c, hc, hq, hl, hd⟩, hfirst, hdir⟩
    · rw [entryAt_putSlot_ne (slot_lt hq) he] at hql hqd ⊢
      exact ⟨⟨c, hc, hq, hql, hqd⟩, rfl, rfl⟩
  have hhead : ∀ h, Head g (putSlot d p e) D ch h → Head g d D ch h := by
    rintro h ⟨h0, hD | ⟨q, hq, rfl⟩⟩
    · exact ⟨h0, .inl hD⟩
    · obtain ⟨hq', hf, _⟩ := hheld q hq
      exact ⟨h0, .inr ⟨q, hq', hf.symm⟩⟩
  refine ⟨hi.root, dirOk_put hg hi hc₀ hps hend, fun q hq hqdir => ?_, fun q hq => ?_, ?_, ?_⟩
  · obtain ⟨hq', hf, hdq⟩ := hheld q hq
    rw [hf]
    exact hi.closed q hq' (hdq ▸ hqdir)
  · obtain ⟨hq', hf, _⟩ := hheld q hq
    rw [hf]
    exact chained_put hg hps (hi.chain q hq')
  · intro q r hq hr he h0
    obtain ⟨hq', hfq, _⟩ := hheld q hq
    obtain ⟨hr', hfr, _⟩ := hheld r hr
    rw [hfq, hfr] at he
    rw [hfq] at h0
    exact hi.inj q r hq' hr' he h0
  · exact fun h h' hh hh' => hi.disj h h' (hhead h hh) (hhead h' hh')

/-- The directories left when the entry with first cluster `f` is gone. -/
def Without (D : Nat → Prop) (f : Nat) (c : Nat) : Prop := D c ∧ (c = 0 ∨ c ≠ f)

theorem held_erase (hps : p ∈ dirSlots g c₀ (ch c₀)) (hlive : e.isLive = false)
    {q : Slot} (hq : Held g (putSlot d p e) (Without D (entryAt d p).first) ch q) :
    Held g d D ch q ∧ q ≠ p ∧ entryAt (putSlot d p e) q = entryAt d q := by
  obtain ⟨c, hc, hqs, hql, hqd⟩ := hq
  have hne : q ≠ p := by
    rintro rfl
    rw [entryAt_putSlot (slot_lt hps), hlive] at hql
    cases hql
  rw [entryAt_putSlot_ne (slot_lt hqs) hne] at hql hqd
  exact ⟨⟨c, hc.1, hqs, hql, hqd⟩, hne, entryAt_putSlot_ne (slot_lt hqs) hne e⟩

/-- The entry of a slot is removed: its chain is no longer in use. -/
theorem erase (hg : g.Valid) (hi : Inventory g d D ch) (hp : Held g d D ch p)
    (hlive : e.isLive = false) (hnend : e.isEnd = false) :
    Inventory g (putSlot d p e) (Without D (entryAt d p).first) ch ∧
      ∀ h, Head g (putSlot d p e) (Without D (entryAt d p).first) ch h →
        Head g d D ch h ∧ h ≠ (entryAt d p).first := by
  have hheldp := hp
  obtain ⟨c₀, hc₀, hps, hl, hd⟩ := hp
  have hend := endMarked_put (e := e) hg hi hc₀ hps (DirectoryEntry.isLive_iff.mp hl).1 hnend
  have hheld := fun q => held_erase (d := d) (D := D) (q := q) hps hlive
  have hnot : ∀ q, Held g (putSlot d p e) (Without D (entryAt d p).first) ch q →
      (entryAt d q).first ≠ 0 → (entryAt d q).first ≠ (entryAt d p).first := by
    intro q hq h0 he
    obtain ⟨hq', hne, _⟩ := hheld q hq
    exact hne (hi.inj q p hq' hheldp he h0)
  have hhead : ∀ h, Head g (putSlot d p e) (Without D (entryAt d p).first) ch h →
      Head g d D ch h ∧ h ≠ (entryAt d p).first := by
    rintro h ⟨h0, hD | ⟨q, hq, rfl⟩⟩
    · exact ⟨⟨h0, .inl hD.1⟩, hD.2.resolve_left h0⟩
    · obtain ⟨hq', _, he⟩ := hheld q hq
      rw [he] at h0 ⊢
      exact ⟨⟨h0, .inr ⟨q, hq', rfl⟩⟩, hnot q hq h0⟩
  refine ⟨⟨⟨hi.root, .inl rfl⟩, fun c hc => dirOk_put hg hi hc₀ hps hend c hc.1, ?_, ?_, ?_, ?_⟩,
    hhead⟩
  · intro q hq hqdir
    obtain ⟨hq', _, he⟩ := hheld q hq
    rw [he] at hqdir ⊢
    refine ⟨hi.closed q hq' hqdir, ?_⟩
    by_cases h0 : (entryAt d q).first = 0
    · exact .inl h0
    · exact .inr (hnot q hq h0)
  · intro q hq
    obtain ⟨hq', _, he⟩ := hheld q hq
    rw [he]
    exact chained_put hg hps (hi.chain q hq')
  · intro q r hq hr he h0
    obtain ⟨hq', _, heq⟩ := hheld q hq
    obtain ⟨hr', _, her⟩ := hheld r hr
    rw [heq, her] at he
    rw [heq] at h0
    exact hi.inj q r hq' hr' he h0
  · exact fun h h' hh hh' => hi.disj h h' (hhead h hh).1 (hhead h' hh').1

def setChain (ch : Nat → List Nat) (n : Nat) (l : List Nat) : Nat → List Nat :=
  fun c => if c = n then l else ch c

theorem not_head_of_fresh (hi : Inventory g d D ch) {n : Nat}
    (hn : Chained g d n l) (hfresh : ∀ h, Head g d D ch h → ∀ x ∈ l, x ∉ ch h) :
    ¬ Head g d D ch n := by
  intro hh
  exact hfresh n hh n (hn.head_mem hh.1) ((hi.head_chained hh).head_mem hh.1)

theorem setChain_dir (hi : Inventory g d D ch) {n : Nat}
    (hn : Chained g d n l) (hfresh : ∀ h, Head g d D ch h → ∀ x ∈ l, x ∉ ch h) :
    ∀ c, c = 0 ∨ Head g d D ch c → setChain ch n l c = ch c := by
  intro c hc
  unfold setChain
  split
  · rename_i he
    subst he
    rcases hc with rfl | hh
    · rw [hn.nil_of_zero, (hi.dir 0 hi.root).chained.nil_of_zero]
    · exact absurd hh (hi.not_head_of_fresh hn hfresh)
  · rfl

theorem zero_or_head (hc : D c) : c = 0 ∨ Head g d D ch c := by
  by_cases h0 : c = 0
  · exact .inl h0
  · exact .inr (head_of_dir hc h0)

theorem first_zero_or_head {q : Slot} (hq : Held g d D ch q) :
    (entryAt d q).first = 0 ∨ Head g d D ch (entryAt d q).first := by
  by_cases h0 : (entryAt d q).first = 0
  · exact .inl h0
  · exact .inr ⟨h0, .inr ⟨q, hq, rfl⟩⟩

/-- A slot gets an entry with a chain of its own: a file, or a directory without entries. -/
theorem insert (hg : g.Valid) (hi : Inventory g d D ch) (hc₀ : D c₀)
    (hp : p ∈ dirSlots g c₀ (ch c₀))
    (hend : EndMarked (putSlot d p e) (dirSlots g c₀ (ch c₀)))
    (hl : Chained g d e.first l) (hfresh : ∀ h, Head g d D ch h → ∀ x ∈ l, x ∉ ch h)
    (hdir : e.isDirectory = true → EndMarked d (dirSlots g e.first l) ∧
      e.first ≠ 0 ∧ ∀ q ∈ dirSlots g e.first l, (entryAt d q).isLive = true →
        (entryAt d q).isDot = true) :
    Inventory g (putSlot d p e) (fun c => D c ∨ (e.isDirectory = true ∧ c = e.first))
      (setChain ch e.first l) ∧
    ∀ h, Head g (putSlot d p e) (fun c => D c ∨ (e.isDirectory = true ∧ c = e.first))
      (setChain ch e.first l) h → h = e.first ∨ Head g d D ch h := by
  have hset := hi.setChain_dir hl hfresh
  have hsetn : setChain ch e.first l e.first = l := if_pos rfl
  have hself := entryAt_putSlot (d := d) (slot_lt hp) e
  -- the slot is not one of the new directory
  have hnew : e.isDirectory = true → ∀ q ∈ dirSlots g e.first l,
      entryAt (putSlot d p e) q = entryAt d q := by
    intro hd q hq
    refine entryAt_putSlot_ne (slot_lt hq) ?_ e
    rintro rfl
    rcases mem_dirSectors.mp (mem_slotsOf.mp hq).1 with ⟨h0, _⟩ | ⟨_, x, hx, hlx⟩
    · exact (hdir hd).2.1 h0
    · exact hi.dir_sector_not_cluster hc₀ (mem_slotsOf.mp hp).1 (hl.data_of_mem x hx)
        (fun h hh => hfresh h hh x hx) hlx
  have hheld : ∀ q, Held g (putSlot d p e) (fun c => D c ∨ (e.isDirectory = true ∧ c = e.first))
      (setChain ch e.first l) q → q = p ∨ (q ≠ p ∧ Held g d D ch q ∧
        entryAt (putSlot d p e) q = entryAt d q) := by
    rintro q ⟨c, hc | ⟨hd, rfl⟩, hqs, hql, hqd⟩
    · rw [hset c (zero_or_head hc)] at hqs
      by_cases he : q = p
      · exact .inl he
      · have hq := entryAt_putSlot_ne (d := d) (slot_lt hqs) he e
        rw [hq] at hql hqd
        exact .inr ⟨he, ⟨c, hc, hqs, hql, hqd⟩, hq⟩
    · rw [hsetn] at hqs
      rw [hnew hd q hqs] at hql hqd
      rw [(hdir hd).2.2 q hqs hql] at hqd
      cases hqd
  have hhead : ∀ h, Head g (putSlot d p e) (fun c => D c ∨ (e.isDirectory = true ∧ c = e.first))
      (setChain ch e.first l) h → h = e.first ∨ Head g d D ch h := by
    rintro h ⟨h0, (hD | ⟨_, rfl⟩) | ⟨q, hq, rfl⟩⟩
    · exact .inr ⟨h0, .inl hD⟩
    · exact .inl rfl
    · rcases hheld q hq with rfl | ⟨_, hq', he⟩
      · rw [hself]; exact .inl rfl
      · rw [he] at h0 ⊢
        exact .inr ⟨h0, .inr ⟨q, hq', rfl⟩⟩
  refine ⟨⟨.inl hi.root, ?_, ?_, ?_, ?_, ?_⟩, hhead⟩
  · rintro c (hc | ⟨hd, rfl⟩)
    · rw [hset c (zero_or_head hc)]
      exact dirOk_put hg hi hc₀ hp hend c hc
    · rw [hsetn]
      exact ⟨chained_put hg hp hl, (hdir hd).1.congr (hnew hd)⟩
  · intro q hq hqdir
    rcases hheld q hq with rfl | ⟨_, hq', he⟩
    · rw [hself] at hqdir ⊢
      exact .inr ⟨hqdir, rfl⟩
    · rw [he] at hqdir ⊢
      exact .inl (hi.closed q hq' hqdir)
  · intro q hq
    rcases hheld q hq with rfl | ⟨_, hq', he⟩
    · rw [hself, hsetn]
      exact chained_put hg hp hl
    · rw [he, hset _ (first_zero_or_head hq')]
      exact chained_put hg hp (hi.chain q hq')
  · -- the new entry's cluster is in use nowhere else
    have hother : ∀ q, q ≠ p → Held g d D ch q → e.first ≠ 0 →
        (entryAt d q).first ≠ e.first := by
      intro q _ hq h0 he
      exact hi.not_head_of_fresh hl hfresh ⟨h0, .inr ⟨q, hq, he⟩⟩
    intro q r hq hr he h0
    rcases hheld q hq with rfl | ⟨hqp, hq', heq⟩
    · rcases hheld r hr with rfl | ⟨hrp, hr', her⟩
      · rfl
      · rw [hself] at he h0
        rw [her] at he
        exact absurd he.symm (hother r hrp hr' h0)
    · rcases hheld r hr with rfl | ⟨_, hr', her⟩
      · rw [hself, heq] at he
        rw [heq, he] at h0
        exact absurd he (hother q hqp hq' h0)
      · rw [heq, her] at he
        rw [heq] at h0
        exact hi.inj q r hq' hr' he h0
  · intro h h' hh hh' hne x hx
    rcases hhead h hh with rfl | ho
    · rw [hsetn] at hx
      rcases hhead h' hh' with rfl | ho'
      · exact absurd rfl hne
      · rw [hset h' (.inr ho')]
        exact hfresh h' ho' x hx
    · rw [hset h (.inr ho)] at hx
      rcases hhead h' hh' with rfl | ho'
      · rw [hsetn]
        exact fun hx' => hfresh h ho x hx' hx
      · rw [hset h' (.inr ho')]
        exact hi.disj h h' ho ho' hne x hx

end PutSlot

/-- A directory gets a free cluster with unused slots behind one of its clusters. What its chain
held behind that cluster is no longer part of it. -/
theorem extend (hg : g.Valid) (hi : Inventory g d D ch) {c t n : Nat} {pre post : List Nat}
    (hc : D c) (h0 : c ≠ 0) (hsplit : ch c = pre ++ t :: post)
    (hfull : ∀ q ∈ dirSlots g c (pre ++ [t]), (entryAt d q).isLive = true)
    (hx : Extended g d t n d') :
    Inventory g d' D (setChain ch c (pre ++ [t, n])) ∧
      ∀ h, Head g d' D (setChain ch c (pre ++ [t, n])) h → Head g d D ch h := by
  have hhc : Head g d D ch c := head_of_dir hc h0
  have hchc := hi.head_chained hhc
  have ht : t ∈ ch c := by rw [hsplit]; simp
  have hnfree : ∀ h, Head g d D ch h → n ∉ ch h := fun h hh => hi.free_not_mem hh hx.free
  have hsub : ∀ x ∈ pre ++ [t], x ∈ ch c := by
    intro x hx
    rw [hsplit]
    rcases List.mem_append.mp hx with hx | hx
    · exact List.mem_append_left _ hx
    · rw [List.mem_singleton] at hx; subst hx; simp
  -- the sectors of the directories are untouched
  have hsec : ∀ c', D c' → ∀ lba ∈ dirSectors g c' (ch c'), d' lba = d lba := fun c' hc' lba hl =>
    hx.touches.sec lba (dirSector_not_fat hl) (hi.dir_sector_not_cluster hc' hl hx.data hnfree)
  have hent : ∀ c', D c' → ∀ q ∈ dirSlots g c' (ch c'), entryAt d' q = entryAt d q :=
    fun c' hc' q hq => entryAt_congr (hsec c' hc' q.1 (mem_slotsOf.mp hq).1)
  have hset : ∀ h, h ≠ c → setChain ch c (pre ++ [t, n]) h = ch h := fun h hne => if_neg hne
  have hsetc : setChain ch c (pre ++ [t, n]) c = pre ++ [t, n] := if_pos rfl
  have hslots : dirSlots g c (pre ++ [t, n]) =
      dirSlots g c (pre ++ [t]) ++ slotsOf (clusterSectors g n) := by
    unfold dirSlots dirSectors
    rw [if_neg h0, if_neg h0, show pre ++ [t, n] = (pre ++ [t]) ++ [n] by simp,
      List.flatMap_append, slotsOf_append]
    simp
  have hold : ∀ q ∈ dirSlots g c (pre ++ [t]), q ∈ dirSlots g c (ch c) := by
    intro q hq
    obtain ⟨hl, hq2⟩ := mem_slotsOf.mp hq
    refine mem_slotsOf.mpr ⟨?_, hq2⟩
    rcases mem_dirSectors.mp hl with ⟨hz, _⟩ | ⟨_, x, hx', hlx⟩
    · exact absurd hz h0
    · exact mem_dirSectors.mpr (.inr ⟨h0, x, hsub x hx', hlx⟩)
  have hheld : ∀ q, Held g d' D (setChain ch c (pre ++ [t, n])) q →
      Held g d D ch q ∧ entryAt d' q = entryAt d q := by
    rintro q ⟨c', hc', hq, hql, hqd⟩
    by_cases he : c' = c
    · subst he
      rw [hsetc, hslots] at hq
      rcases List.mem_append.mp hq with hq | hq
      · have heq := hent c' hc' q (hold q hq)
        rw [heq] at hql hqd
        exact ⟨⟨c', hc', hold q hq, hql, hqd⟩, heq⟩
      · have := hx.unused q hq
        rw [(DirectoryEntry.isLive_iff.mp hql).1] at this
        cases this
    · rw [hset c' he] at hq
      have heq := hent c' hc' q hq
      rw [heq] at hql hqd
      exact ⟨⟨c', hc', hq, hql, hqd⟩, heq⟩
  have hhead : ∀ h, Head g d' D (setChain ch c (pre ++ [t, n])) h → Head g d D ch h := by
    rintro h ⟨hz, hD | ⟨q, hq, rfl⟩⟩
    · exact ⟨hz, .inl hD⟩
    · obtain ⟨hq', he⟩ := hheld q hq
      exact ⟨hz, .inr ⟨q, hq', by rw [he]⟩⟩
  -- the other chains avoid both table entries that changed
  have hchain : ∀ h, h = 0 ∨ Head g d D ch h →
      Chained g d' h (setChain ch c (pre ++ [t, n]) h) := by
    rintro h (rfl | hh)
    · rw [hset 0 (Ne.symm h0)]
      exact .inl ⟨rfl, (hi.dir 0 hi.root).chained.nil_of_zero⟩
    · by_cases he : h = c
      · subst he
        rw [hsetc]
        refine .inr ⟨by simp, ?_⟩
        have hch := hchc.chainOf h0
        have hnd := hchc.nodup hg
        rw [hsplit] at hch hnd
        have hpre : ∀ x ∈ pre, fatGet g d' x = fatGet g d x := by
          intro x hxp
          have hxd := hchc.data_of_mem x (by rw [hsplit]; simp [hxp])
          refine hx.touches.fatGet_eq hg (inTable_of_data hg hxd) ?_
          rintro (rfl | rfl)
          · exact (List.nodup_append.mp hnd).2.2 x hxp x List.mem_cons_self rfl
          · exact hnfree h hh (by rw [hsplit]; simp [hxp])
        exact IsChain.extend hch hpre hx.link hx.data hx.last
      · rw [hset h he]
        refine (hi.head_chained hh).touches hg hx.touches ?_
        rintro x hxh (rfl | rfl)
        · exact hi.disj h c hh hhc he x hxh ht
        · exact hnfree h hh hxh
  refine ⟨⟨hi.root, fun c' hc' => ⟨hchain c' (zero_or_head hc'), ?_⟩, ?_, ?_, ?_, ?_⟩, hhead⟩
  · by_cases he : c' = c
    · subst he
      rw [hsetc, hslots]
      refine List.pairwise_append.mpr ⟨?_, ?_, ?_⟩
      · refine List.pairwise_of_forall_mem_list fun q hq r _ hqe => ?_
        have := (DirectoryEntry.isLive_iff.mp (hfull q hq)).1
        rw [hent c' hc' q (hold q hq), this] at hqe
        cases hqe
      · exact List.pairwise_of_forall_mem_list fun q _ r hr _ => hx.unused r hr
      · exact fun q _ r hr _ => hx.unused r hr
    · rw [hset c' he]
      exact (hi.dir c' hc').endMarked.congr (hent c' hc')
  · intro q hq hqdir
    obtain ⟨hq', he⟩ := hheld q hq
    rw [he] at hqdir ⊢
    exact hi.closed q hq' hqdir
  · intro q hq
    obtain ⟨hq', he⟩ := hheld q hq
    rw [he]
    exact hchain _ (first_zero_or_head hq')
  · intro q r hq hr he hz
    obtain ⟨hq', heq⟩ := hheld q hq
    obtain ⟨hr', her⟩ := hheld r hr
    rw [heq, her] at he
    rw [heq] at hz
    exact hi.inj q r hq' hr' he hz
  · -- the new cluster is in no old chain, the rest of the new chain is part of the old one
    have hcut : ∀ x ∈ pre ++ [t, n], x ∈ ch c ∨ x = n := by
      intro x hxm
      rw [show pre ++ [t, n] = (pre ++ [t]) ++ [n] by simp] at hxm
      rcases List.mem_append.mp hxm with hxm | hxm
      · exact .inl (hsub x hxm)
      · exact .inr (List.mem_singleton.mp hxm)
    intro h h' hh hh' hne x hxm
    have ho := hhead h hh
    have ho' := hhead h' hh'
    by_cases he : h = c
    · subst he
      rw [hsetc] at hxm
      rw [hset h' (Ne.symm hne)]
      rcases hcut x hxm with hxm | rfl
      · exact hi.disj h h' ho ho' hne x hxm
      · exact hnfree h' ho'
    · rw [hset h he] at hxm
      by_cases he' : h' = c
      · subst he'
        rw [hsetc]
        intro hxm'
        rcases hcut x hxm' with hxm' | rfl
        · exact hi.disj h h' ho ho' hne x hxm hxm'
        · exact hnfree h ho hxm
      · rw [hset h' he']
        exact hi.disj h h' ho ho' hne x hxm

end Inventory

/-! ## Blank volumes -/

def blankDisk : Disk := fun _ => Sector.zero

theorem IsDir.eq_zero (hc : IsDir g d c) (h : ∀ p ∈ dirSlots g 0 [],
    (entryAt d p).isLive = true → (entryAt d p).isDirectory = false) : c = 0 := by
  induction hc with
  | root => rfl
  | @sub c l p _ _ hp hlive _ hdir ih =>
    subst ih
    rw [h p hp hlive] at hdir
    cases hdir

theorem wellFormed_of_empty_root (h : ∀ p ∈ dirSlots g 0 [], (entryAt d p).isEnd = true) :
    WellFormed g d := by
  have hdead : ∀ c l p, c = 0 → p ∈ dirSlots g c l → (entryAt d p).isEnd = true := by
    rintro c l p rfl hp
    exact h p hp
  have hroot : ∀ c, IsDir g d c → c = 0 := by
    intro c hc
    refine hc.eq_zero (fun p hp hlive => ?_)
    have := (DirectoryEntry.isLive_iff.mp hlive).1
    rw [h p hp] at this
    cases this
  have hnone : ∀ p, ¬ LiveSlot g d p := by
    rintro p ⟨c, l, hc, _, hp, hlive, _⟩
    have := (DirectoryEntry.isLive_iff.mp hlive).1
    rw [hdead c l p (hroot c hc) hp] at this
    cases this
  refine ⟨fun c l hc _ => ?_, fun p hp => absurd hp (hnone p), fun p _ _ _ hp => absurd hp (hnone p)⟩
  exact List.pairwise_of_forall_mem_list fun _ _ q hq _ => hdead c l q (hroot c hc) hq

theorem blankDisk_wellFormed (g : Globals) : WellFormed g blankDisk :=
  wellFormed_of_empty_root (fun p _ => zero_entry_isEnd p.2)

/-- A FAT12 volume of seven sectors: two copies of the table, a root directory of 16 slots and
three clusters of one sector. -/
def smallVolume : Globals :=
  ⟨⟨512, 1, 1, 2, 16, 7, 0xF8, 1, 0, 0, 0, 0⟩, .fat12⟩

theorem smallVolume_valid : smallVolume.Valid := by
  refine ⟨rfl, ?_, ?_, ?_, ?_⟩ <;> decide

def blankMem : DriverMem where
  disk := blankDisk
  buf := fun _ => Sector.zero
  accesses := 0
  stores := 0

end Fat16
end MiniDos
