import StateProtocol.Data.Save
import Mathlib.Data.Stream.Init

/-!
# When `save_gif` saves its buffer

`Saves` is what a caller relies on, whatever `fwrite` takes at the single calls:
`save_gif` comes to an end, the file is the buffer when it returns, and it ends
with an error when from some call on nothing is taken.

`fwrite` reports an error by a short count and never by a negative one, so the
loop has no way out but a full count, and each of its calls begins at the start
of the buffer. It saves the buffer exactly when the counts add up to the length
and what is written again is also what comes next (`Completes`); every buffer
of a length is saved exactly when the first call that takes anything takes all of
it (`FirstTakesAll`).
-/

namespace StateProtocol.Data.Local

open StateProtocol.Clib

/-- The disk when `fwrite` has answered the first `n` calls of `σ`. -/
def withCounts (d : Disk) (σ : Stream' Nat) (n : Nat) : Disk := { d with counts := σ.take n }

/-- After `n` calls the process has made another one. -/
def Writing (x : C Disk Unit) (d : Disk) (σ : Stream' Nat) (n : Nat) : Prop :=
  ∃ q, x (withCounts d σ n) = .error .blocked q

/-- `x` saves `data` under `name`, if `fwrite` takes what `σ` says. -/
structure Saves (x : C Disk Unit) (d : Disk) (name data : Bytes) (σ : Stream' Nat) : Prop where
  /-- It returns or reports failure. -/
  ends : ∃ n q, x (withCounts d σ n) = .ok () q ∨ x (withCounts d σ n) = .error (.exit 1) q
  /-- When it returns the file holds the data. -/
  exact : ∀ n q, x (withCounts d σ n) = .ok () q → q.files name = some data
  /-- An error that lasts is reported. -/
  reports : ∀ i, Writing x d σ i → data ≠ [] → (∀ j, i ≤ j → σ.get j = 0) →
    ∃ n q, x (withCounts d σ n) = .error (.exit 1) q

/-- With `total` bytes counted, `n` calls fill the count, and each of them writes
what comes next. -/
def Completes (data : Bytes) : (n total : Nat) → Stream' Nat → Prop
  | 0, total, _ => total = data.length
  | n + 1, total, σ =>
    data.take σ.head <+: data.drop total ∧
      Completes data n (total + min σ.head data.length) σ.tail

/-- The first call that takes anything takes `size` bytes. -/
def FirstTakesAll (size : Nat) (σ : Stream' Nat) : Prop :=
  ∃ n, (∀ i < n, σ.get i = 0) ∧ size ≤ σ.get n

/-- A buffer and an `int` length that lies inside of it. -/
structure Picture where
  buffer : Bytes
  len : Nat
  inside : len ≤ buffer.length
  isInt : len < 2 ^ 31

namespace Picture

/-- The bytes to be saved. -/
def data (pic : Picture) : Bytes := pic.buffer.take pic.len

theorem data_length (pic : Picture) : pic.data.length = pic.len :=
  List.length_take_of_le pic.inside

/-- The call of `save_gif`. -/
def save (pic : Picture) (char1 char2 : UInt8) : C Disk Unit :=
  saveGif char1 char2 pic.buffer (Int32.ofNat pic.len)

/-- The loop of `save_gif`, with `total` bytes counted. -/
def loop (pic : Picture) (name : Bytes) (total : Int32) : C Disk Unit := fun d =>
  saveLoop name pic.buffer (Int32.ofNat pic.len) (d.counts.length + 1) total d

end Picture

/-- The disk once a call has taken `bytes`. -/
def appended (d : Disk) (name bytes : Bytes) : Disk :=
  d.put name ((d.files name).getD [] ++ bytes)

section Loop

variable (pic : Picture) {name : Bytes} {total : Int32} {d : Disk}

theorem loop_blocked (h : d.counts = []) : pic.loop name total d = .error .blocked d := by
  rw [Picture.loop, saveLoop, asSize_ofNat pic.isInt]
  refine bind_of_error ?_
  rw [fwrite, if_neg (Nat.not_lt.mpr pic.inside), h]

/-- One round: `fwrite` does not report an error. -/
theorem loop_step {k : Nat} {ks : List Nat} (h : d.counts = k :: ks) :
    pic.loop name total d =
      if total + Int32.ofNat (min k pic.len) ≥ Int32.ofNat pic.len then
        .ok () { appended d name (pic.data.take k) with counts := ks }
      else pic.loop name (total + Int32.ofNat (min k pic.len))
        { appended d name (pic.data.take k) with counts := ks } := by
  have hwrite : fwrite name pic.buffer pic.len d
      = .ok (min k pic.len) { appended d name (pic.data.take k) with counts := ks } := by
    rw [fwrite, if_neg (Nat.not_lt.mpr pic.inside), h, Picture.data, List.take_take]
    rfl
  have hneg : ¬Int32.ofNat (min k pic.len) < 0 := by
    have hlt := pic.isInt
    rw [ofNat_neg_iff (by omega)]
    omega
  rw [Picture.loop, saveLoop, asSize_ofNat pic.isInt, bind_of_ok hwrite, if_neg hneg]
  dsimp only
  split
  · rfl
  · rw [h]
    rfl

/-- The loop has no error exit, and what it has written stays at the start of the
file. -/
theorem loop_grows (name : Bytes) : ∀ (counts : List Nat) (total : Int32) (d : Disk),
    d.counts = counts →
    (∀ q, pic.loop name total d ≠ .error (.exit 1) q) ∧
    ∀ q, pic.loop name total d = .ok () q → (d.files name).getD [] <+: (q.files name).getD [] := by
  intro counts
  induction counts with
  | nil =>
    intro total d h
    rw [loop_blocked pic h]
    exact ⟨nofun, nofun⟩
  | cons k ks ih =>
    intro total d h
    have hfirst : (d.files name).getD [] <+:
        ((appended d name (pic.data.take k)).files name).getD [] := by
      rw [appended, Disk.put_files, Function.update_self]
      exact List.prefix_append _ _
    rw [loop_step pic h]
    split
    · refine ⟨nofun, fun q hq => ?_⟩
      cases hq
      exact hfirst
    · obtain ⟨hno, hrest⟩ := ih (total + Int32.ofNat (min k pic.len))
        { appended d name (pic.data.take k) with counts := ks } rfl
      exact ⟨hno, fun q hq => hfirst.trans (hrest q hq)⟩

end Loop

/-! ## One call at a time -/

section Saves

variable {x y : C Disk Unit} {d e : Disk} {name data : Bytes} {σ : Stream' Nat}

/-- The call that does not end the loop, and what it does then. -/
theorem Saves.step (hx0 : x (withCounts d σ 0) = .error .blocked (withCounts d σ 0))
    (hy0 : y (withCounts e σ.tail 0) = .error .blocked (withCounts e σ.tail 0))
    (hx : ∀ n, x (withCounts d σ (n + 1)) = y (withCounts e σ.tail n)) :
    Saves x d name data σ ↔ Saves y e name data σ.tail := by
  have hzero (n : Nat) (q : Disk) : x (withCounts d σ 0) ≠ .ok () q ∧
      x (withCounts d σ 0) ≠ .error (.exit n) q := by
    rw [hx0]
    exact ⟨nofun, nofun⟩
  have hreports : (∃ n q, x (withCounts d σ n) = .error (.exit 1) q) ↔
      ∃ n q, y (withCounts e σ.tail n) = .error (.exit 1) q := by
    constructor
    · rintro ⟨n, q, hq⟩
      cases n with
      | zero => exact absurd hq (hzero 1 q).2
      | succ n => exact ⟨n, q, (hx n).symm.trans hq⟩
    · rintro ⟨n, q, hq⟩
      exact ⟨n + 1, q, (hx n).trans hq⟩
  constructor
  · intro h
    refine ⟨?_, fun n q hq => h.exact (n + 1) q ((hx n).trans hq), fun i hw hne hz => ?_⟩
    · obtain ⟨n, q, hq⟩ := h.ends
      cases n with
      | zero => exact absurd hq (not_or.mpr (hzero 1 q))
      | succ n =>
        rw [hx] at hq
        exact ⟨n, q, hq⟩
    · obtain ⟨q, hq⟩ := hw
      refine hreports.mp (h.reports (i + 1) ⟨q, (hx i).trans hq⟩ hne fun j hj => ?_)
      cases j with
      | zero => exact absurd hj (Nat.not_succ_le_zero i)
      | succ j => exact hz j (Nat.le_of_succ_le_succ hj)
  · intro h
    refine ⟨?_, fun n q hq => ?_, fun i hw hne hz => hreports.mpr ?_⟩
    · obtain ⟨n, q, hq⟩ := h.ends
      rw [← hx] at hq
      exact ⟨n + 1, q, hq⟩
    · cases n with
      | zero => exact absurd hq (hzero 1 q).1
      | succ n => exact h.exact n q ((hx n).symm.trans hq)
    · cases i with
      | zero => exact h.reports 0 ⟨_, hy0⟩ hne fun j _ => hz (j + 1) (Nat.zero_le _)
      | succ i =>
        obtain ⟨q, hq⟩ := hw
        exact h.reports i ⟨q, (hx i).symm.trans hq⟩ hne fun j hj => hz (j + 1) (by omega)

/-- A single call does it, which takes something if there is anything to take. -/
theorem Saves.of_returns (hx0 : ∀ q, x (withCounts d σ 0) ≠ .ok () q)
    (hx : ∀ n, ∃ q, x (withCounts d σ (n + 1)) = .ok () q ∧ q.files name = some data)
    (htakes : data ≠ [] → σ.head ≠ 0) : Saves x d name data σ := by
  refine ⟨?_, fun n q hq => ?_, fun i hw hne hz => ?_⟩
  · obtain ⟨q, hq, -⟩ := hx 0
    exact ⟨1, q, Or.inl hq⟩
  · cases n with
    | zero => exact absurd hq (hx0 q)
    | succ n =>
      obtain ⟨r, hr, hfile⟩ := hx n
      rw [hr] at hq
      cases hq
      exact hfile
  · cases i with
    | zero => exact absurd (hz 0 (Nat.le_refl 0)) (htakes hne)
    | succ i =>
      obtain ⟨q, hq⟩ := hw
      obtain ⟨r, hr, -⟩ := hx i
      rw [hr] at hq
      cases hq

/-- Only the runs count. -/
theorem Saves.of_runs (h : Saves x d name data σ)
    (hxy : ∀ n, x (withCounts d σ n) = y (withCounts e σ n)) : Saves y e name data σ := by
  obtain ⟨hends, hexact, hreports⟩ := h
  simp only [Writing, hxy] at hends hexact hreports
  exact ⟨hends, hexact, hreports⟩

end Saves

section Run

variable (pic : Picture) {name : Bytes} {d : Disk} {σ : Stream' Nat} {total : Nat}

/-- Sums that do not pass the length are what they are as an `int`. -/
theorem full_iff {k : Nat} (h : total + min k pic.len ≤ pic.len) :
    Int32.ofNat total + Int32.ofNat (min k pic.len) ≥ Int32.ofNat pic.len ↔
      total + min k pic.len = pic.len := by
  have hint := pic.isInt
  rw [← Int32.ofNat_add, ge_iff_le, Int32.le_iff_toInt_le, Int32.toInt_ofNat_of_lt hint,
    Int32.toInt_ofNat_of_lt (by omega)]
  omega

theorem loop_of_withCounts (n : Nat) (total : Int32) :
    pic.loop name total (withCounts d σ (n + 1)) =
      if total + Int32.ofNat (min σ.head pic.len) ≥ Int32.ofNat pic.len then
        .ok () (withCounts (appended d name (pic.data.take σ.head)) σ.tail n)
      else pic.loop name (total + Int32.ofNat (min σ.head pic.len))
        (withCounts (appended d name (pic.data.take σ.head)) σ.tail n) :=
  loop_step pic (show (withCounts d σ (n + 1)).counts = _ from Stream'.take_succ n σ)

/-- A call that writes something else than what comes next spoils the file. -/
theorem loop_astray (hfile : d.files name = some (pic.data.take total))
    (hbytes : ¬pic.data.take σ.head <+: pic.data.drop total) (sum : Int32) :
    ¬Saves (pic.loop name sum) d name pic.data σ := by
  intro h
  have hastray : ¬pic.data.take total ++ pic.data.take σ.head <+: pic.data := by
    intro hprefix
    have hsplit : pic.data.take total ++ pic.data.take σ.head <+:
        pic.data.take total ++ pic.data.drop total := by
      rwa [List.take_append_drop]
    exact hbytes ((List.prefix_append_right_inj _).mp hsplit)
  have hfirst : ((appended d name (pic.data.take σ.head)).files name).getD []
      = pic.data.take total ++ pic.data.take σ.head := by
    rw [appended, Disk.put_files, Function.update_self, hfile]
    rfl
  obtain ⟨n, q, hend⟩ := h.ends
  cases n with
  | zero =>
    rw [loop_blocked pic rfl] at hend
    exact hend.elim nofun nofun
  | succ n =>
    have hgrows := loop_grows pic name (σ.tail.take n) (sum + Int32.ofNat (min σ.head pic.len))
      (withCounts (appended d name (pic.data.take σ.head)) σ.tail n) rfl
    rcases hend with hok | hexit
    · have hdata := h.exact (n + 1) q hok
      rw [loop_of_withCounts] at hok
      split at hok
      · cases hok
        refine hastray ?_
        rw [← hfirst]
        show ((withCounts (appended d name _) σ.tail n).files name).getD [] <+: _
        rw [hdata]
        exact List.prefix_rfl
      · have hprefix := hgrows.2 q hok
        rw [hdata] at hprefix
        exact hastray (hfirst ▸ hprefix)
    · rw [loop_of_withCounts] at hexit
      split at hexit
      · cases hexit
      · exact hgrows.1 q hexit

theorem take_eq_piece {k : Nat} (h : pic.data.take k <+: pic.data.drop total) :
    pic.data.take k = (pic.data.drop total).take (min k pic.len) := by
  have hpiece := List.prefix_iff_eq_take.mp h
  rwa [List.length_take, pic.data_length] at hpiece

/-- The call that fills the count with the right bytes. -/
theorem loop_last (hlt : total < pic.len) (hfile : d.files name = some (pic.data.take total))
    (hbytes : pic.data.take σ.head <+: pic.data.drop total)
    (hfull : total + min σ.head pic.len = pic.len) :
    Saves (pic.loop name (Int32.ofNat total)) d name pic.data σ := by
  have hrest : (pic.data.drop total).take (min σ.head pic.len) = pic.data.drop total := by
    rw [List.take_of_length_le]
    rw [List.length_drop, pic.data_length]
    omega
  have hwhole : pic.data.take total ++ pic.data.take σ.head = pic.data := by
    rw [take_eq_piece pic hbytes, hrest, List.take_append_drop]
  have hrun (n : Nat) : pic.loop name (Int32.ofNat total) (withCounts d σ (n + 1))
      = .ok () (withCounts (d.put name pic.data) σ.tail n) := by
    rw [loop_of_withCounts, if_pos ((full_iff pic (Nat.le_of_eq hfull)).mpr hfull), appended, hfile,
      Option.getD_some, hwhole]
  refine Saves.of_returns ?_ (fun n => ⟨_, hrun n, Function.update_self ..⟩) fun _ => by omega
  rw [loop_blocked pic rfl]
  exact nofun

/-- A call that leaves something to be counted. -/
theorem loop_more (hfile : d.files name = some (pic.data.take total))
    (hbytes : pic.data.take σ.head <+: pic.data.drop total)
    (hmore : total + min σ.head pic.len < pic.len) :
    (appended d name (pic.data.take σ.head)).files name
        = some (pic.data.take (total + min σ.head pic.len)) ∧
      (Saves (pic.loop name (Int32.ofNat total)) d name pic.data σ ↔
        Saves (pic.loop name (Int32.ofNat (total + min σ.head pic.len)))
          (appended d name (pic.data.take σ.head)) name pic.data σ.tail) := by
  constructor
  · rw [appended, Disk.put_files, Function.update_self, hfile, Option.getD_some,
      take_eq_piece pic hbytes, ← List.take_add]
  · refine Saves.step (loop_blocked pic rfl) (loop_blocked pic rfl) fun n => ?_
    have hnot := mt (full_iff pic hmore.le).mp (Nat.ne_of_lt hmore)
    rw [loop_of_withCounts, if_neg hnot, ← Int32.ofNat_add]

/-- A piece that comes next fits into what is left. -/
theorem piece_le (hlt : total ≤ pic.len)
    (hbytes : pic.data.take σ.head <+: pic.data.drop total) :
    total + min σ.head pic.len ≤ pic.len := by
  have hle := hbytes.length_le
  rw [List.length_take, List.length_drop, pic.data_length] at hle
  omega

theorem loop_saves : ∀ (n total : Nat) (d : Disk) (σ : Stream' Nat), total < pic.len →
    d.files name = some (pic.data.take total) → Completes pic.data n total σ →
    Saves (pic.loop name (Int32.ofNat total)) d name pic.data σ := by
  intro n
  induction n with
  | zero =>
    intro total d σ hlt _ hall
    rw [Completes, pic.data_length] at hall
    omega
  | succ n ih =>
    intro total d σ hlt hfile hall
    obtain ⟨hbytes, hrest⟩ := hall
    rw [pic.data_length] at hrest
    rcases Nat.eq_or_lt_of_le (piece_le pic hlt.le hbytes) with hfull | hmore
    · exact loop_last pic hlt hfile hbytes hfull
    · obtain ⟨hfile', hiff⟩ := loop_more pic hfile hbytes hmore
      exact hiff.mpr (ih _ _ _ hmore hfile' hrest)

theorem loop_completes : ∀ (n total : Nat) (d : Disk) (σ : Stream' Nat), total < pic.len →
    d.files name = some (pic.data.take total) →
    (∀ q, pic.loop name (Int32.ofNat total) (withCounts d σ n) ≠ .error .blocked q) →
    Saves (pic.loop name (Int32.ofNat total)) d name pic.data σ →
    ∃ m, Completes pic.data m total σ := by
  intro n
  induction n with
  | zero =>
    intro total d σ _ _ hends
    exact absurd (loop_blocked pic rfl) (hends _)
  | succ n ih =>
    intro total d σ hlt hfile hends hsaves
    by_cases hbytes : pic.data.take σ.head <+: pic.data.drop total
    · rcases Nat.eq_or_lt_of_le (piece_le pic hlt.le hbytes) with hfull | hmore
      · refine ⟨1, hbytes, ?_⟩
        rw [pic.data_length]
        exact hfull.trans pic.data_length.symm
      · obtain ⟨hfile', hiff⟩ := loop_more pic hfile hbytes hmore
        rw [loop_of_withCounts, if_neg (mt (full_iff pic hmore.le).mp (Nat.ne_of_lt hmore)),
          ← Int32.ofNat_add] at hends
        obtain ⟨m, hm⟩ := ih _ _ _ hmore hfile' hends (hiff.mp hsaves)
        refine ⟨m + 1, hbytes, ?_⟩
        rw [pic.data_length]
        exact hm
    · exact absurd hsaves (loop_astray pic hfile hbytes _)

/-- From any count below the length. -/
theorem loop_saves_iff (hlt : total < pic.len) (hfile : d.files name = some (pic.data.take total)) :
    Saves (pic.loop name (Int32.ofNat total)) d name pic.data σ ↔
      ∃ n, Completes pic.data n total σ := by
  constructor
  · intro h
    obtain ⟨n, q, hend⟩ := h.ends
    refine loop_completes pic n total d σ hlt hfile (fun r hr => ?_) h
    rw [hr] at hend
    exact hend.elim nofun nofun
  · rintro ⟨n, hn⟩
    exact loop_saves pic n total d σ hlt hfile hn

/-- Nothing has to be written. -/
theorem loop_empty (hlen : pic.len = 0) (hfile : d.files name = some []) :
    Saves (pic.loop name 0) d name pic.data σ := by
  have hdata : pic.data = [] := List.length_eq_zero_iff.mp (pic.data_length.trans hlen)
  have hrun (n : Nat) : pic.loop name 0 (withCounts d σ (n + 1))
      = .ok () (withCounts (d.put name []) σ.tail n) := by
    rw [loop_of_withCounts, hlen, Nat.min_zero, if_pos (by decide), appended, hfile, hdata,
      List.take_nil]
    rfl
  refine Saves.of_returns ?_ (fun n => ⟨_, hrun n, ?_⟩) fun hne => absurd hdata hne
  · rw [loop_blocked pic rfl]
    exact nofun
  · rw [hdata]
    exact Function.update_self ..

/-- The loop of a whole run. -/
theorem loop_zero_saves_iff (hfile : d.files name = some []) :
    Saves (pic.loop name 0) d name pic.data σ ↔ ∃ n, Completes pic.data n 0 σ := by
  rcases Nat.eq_zero_or_pos pic.len with hlen | hpos
  · exact iff_of_true (loop_empty pic hlen hfile) ⟨0, (pic.data_length.trans hlen).symm⟩
  · exact loop_saves_iff pic hpos hfile

end Run

/-! ## The whole call -/

section Call

variable (pic : Picture) (char1 char2 : UInt8) {d : Disk} {σ : Stream' Nat}

/-- A file that cannot be created is reported. -/
theorem save_unwritable (h : d.writable (constructLocalGifFilename char1 char2) = false) :
    Saves (pic.save char1 char2) d (constructLocalGifFilename char1 char2) pic.data σ := by
  have hrun (n : Nat) : pic.save char1 char2 (withCounts d σ n)
      = .error (.exit 1) (withCounts d σ n) := by
    have hopen : fopenWrite (constructLocalGifFilename char1 char2) (withCounts d σ n)
        = .ok false (withCounts d σ n) := if_neg (Bool.eq_false_iff.mp h)
    exact bind_of_ok hopen
  refine ⟨⟨0, _, Or.inr (hrun 0)⟩, fun n q hq => ?_, fun _ _ _ _ => ⟨0, _, hrun 0⟩⟩
  rw [hrun] at hq
  cases hq

theorem save_writable (h : d.writable (constructLocalGifFilename char1 char2) = true) :
    Saves (pic.save char1 char2) d (constructLocalGifFilename char1 char2) pic.data σ ↔
      ∃ n, Completes pic.data n 0 σ := by
  have hrun (n : Nat) : pic.save char1 char2 (withCounts d σ n)
      = pic.loop (constructLocalGifFilename char1 char2) 0
        (withCounts (d.put (constructLocalGifFilename char1 char2) []) σ n) := by
    have hopen : fopenWrite (constructLocalGifFilename char1 char2) (withCounts d σ n)
        = .ok true (withCounts (d.put (constructLocalGifFilename char1 char2) []) σ n) := if_pos h
    exact bind_of_ok hopen
  rw [← loop_zero_saves_iff pic (d := d.put (constructLocalGifFilename char1 char2) [])
    (Function.update_self ..)]
  exact ⟨fun hsaves => hsaves.of_runs hrun, fun hsaves => hsaves.of_runs fun n => (hrun n).symm⟩

/-- **One buffer**: what `fwrite` has to do for it. -/
theorem save_saves_iff :
    Saves (pic.save char1 char2) d (constructLocalGifFilename char1 char2) pic.data σ ↔
      d.writable (constructLocalGifFilename char1 char2) = false ∨
        ∃ n, Completes pic.data n 0 σ := by
  cases h : d.writable (constructLocalGifFilename char1 char2) with
  | false => exact iff_of_true (save_unwritable pic char1 char2 h) (Or.inl rfl)
  | true =>
    rw [save_writable pic char1 char2 h]
    exact ⟨Or.inr, fun hor => hor.resolve_left nofun⟩

end Call

/-! ## Every buffer of a length -/

theorem FirstTakesAll.succ {size : Nat} {σ : Stream' Nat} (hnone : σ.head = 0)
    (h : FirstTakesAll size σ.tail) : FirstTakesAll size σ := by
  obtain ⟨n, hzero, hn⟩ := h
  refine ⟨n + 1, fun i hi => ?_, hn⟩
  cases i with
  | zero => exact hnone
  | succ i => exact hzero i (Nat.lt_of_succ_lt_succ hi)

/-- One full call completes any data. -/
theorem FirstTakesAll.completes {data : Bytes} {σ : Stream' Nat}
    (h : FirstTakesAll data.length σ) : ∃ m, Completes data m 0 σ := by
  obtain ⟨n, hzero, hn⟩ := h
  induction n generalizing σ with
  | zero =>
    have hhead : min σ.head data.length = data.length := Nat.min_eq_right hn
    refine ⟨1, List.take_prefix _ data, ?_⟩
    rw [hhead]
    exact Nat.zero_add _
  | succ n ih =>
    obtain ⟨m, hm⟩ := ih (σ := σ.tail) (fun i hi => hzero (i + 1) (Nat.succ_lt_succ hi)) hn
    have hnone : σ.head = 0 := hzero 0 (Nat.succ_pos n)
    refine ⟨m + 1, List.take_prefix _ data, ?_⟩
    rw [hnone, Nat.zero_min]
    exact hm

section Fresh

variable {b : UInt8} {rest : Bytes}

/-- Data whose first byte does not come again cannot be completed from the
middle. -/
theorem not_completes (hb : b ∉ rest) : ∀ (n total : Nat) (σ : Stream' Nat), 0 < total →
    total < (b :: rest).length → ¬Completes (b :: rest) n total σ := by
  intro n
  induction n with
  | zero =>
    intro total σ _ hlt hall
    exact absurd hall (Nat.ne_of_lt hlt)
  | succ n ih =>
    intro total σ hpos hlt hall
    obtain ⟨hbytes, hrest⟩ := hall
    cases hhead : σ.head with
    | zero =>
      rw [hhead, Nat.zero_min] at hrest
      exact ih total σ.tail hpos hlt hrest
    | succ k =>
      obtain ⟨t, rfl⟩ : ∃ t, total = t + 1 := ⟨total - 1, by omega⟩
      rw [hhead, List.take_succ_cons, List.drop_succ_cons] at hbytes
      exact hb (List.mem_of_mem_drop (hbytes.subset (List.mem_cons_self ..)))

/-- So the first call that takes any of it takes all. -/
theorem firstTakesAll_of_completes (hb : b ∉ rest) : ∀ (n : Nat) (σ : Stream' Nat),
    Completes (b :: rest) n 0 σ → FirstTakesAll (b :: rest).length σ := by
  intro n
  induction n with
  | zero =>
    intro σ hall
    exact absurd hall (Nat.succ_ne_zero _).symm
  | succ n ih =>
    intro σ hall
    obtain ⟨-, hrest⟩ := hall
    rcases Nat.eq_zero_or_pos σ.head with hnone | hpos
    · rw [hnone, Nat.zero_min] at hrest
      exact (ih σ.tail hrest).succ hnone
    · by_cases hfull : (b :: rest).length ≤ σ.head
      · exact ⟨0, fun i hi => absurd hi (Nat.not_lt_zero i), hfull⟩
      · rw [Nat.zero_add, Nat.min_eq_left (Nat.le_of_not_le hfull)] at hrest
        exact absurd hrest (not_completes hb n _ _ hpos (Nat.not_le.mp hfull))

end Fresh

/-- A buffer of the given length whose first byte does not come again. -/
def Picture.fresh (len : Nat) (isInt : len + 1 < 2 ^ 31) : Picture where
  buffer := 1 :: List.replicate len 0
  len := len + 1
  inside := by rw [List.length_cons, List.length_replicate]
  isInt := isInt

theorem fresh_firstTakesAll {len n : Nat} {isInt : len + 1 < 2 ^ 31} {σ : Stream' Nat}
    (h : Completes (Picture.fresh len isInt).data n 0 σ) : FirstTakesAll (len + 1) σ := by
  have hdata : (Picture.fresh len isInt).data = 1 :: List.replicate len 0 := by
    rw [Picture.data, Picture.fresh, List.take_of_length_le]
    rw [List.length_cons, List.length_replicate]
  have hb : (1 : UInt8) ∉ List.replicate len 0 := fun h1 =>
    absurd (List.eq_of_mem_replicate h1) (by decide)
  rw [hdata] at h
  have hall := firstTakesAll_of_completes hb n σ h
  rwa [List.length_cons, List.length_replicate] at hall

/-- **When `save_gif` saves its buffer**: this one, and every one of its length. -/
theorem saveGif_saves_iff (pic : Picture) (char1 char2 : UInt8) (d : Disk) (σ : Stream' Nat) :
    (Saves (pic.save char1 char2) d (constructLocalGifFilename char1 char2) pic.data σ ↔
      d.writable (constructLocalGifFilename char1 char2) = false ∨
        ∃ n, Completes pic.data n 0 σ) ∧
    ((∀ other : Picture, other.len = pic.len →
        Saves (other.save char1 char2) d (constructLocalGifFilename char1 char2) other.data σ) ↔
      d.writable (constructLocalGifFilename char1 char2) = false ∨ pic.len = 0 ∨
        FirstTakesAll pic.len σ) := by
  refine ⟨save_saves_iff pic char1 char2, fun hall => ?_, fun hor other hlen => ?_⟩
  · cases hpos : pic.len with
    | zero => exact Or.inr (Or.inl rfl)
    | succ len =>
      have hint : len + 1 < 2 ^ 31 := hpos ▸ pic.isInt
      rcases (save_saves_iff _ char1 char2).mp (hall (Picture.fresh len hint) hpos.symm) with
        hno | ⟨n, hn⟩
      · exact Or.inl hno
      · exact Or.inr (Or.inr (fresh_firstTakesAll hn))
  · refine (save_saves_iff other char1 char2).mpr (hor.imp_right ?_)
    rw [← hlen, ← other.data_length]
    rintro (hempty | hfirst)
    · exact ⟨0, hempty.symm⟩
    · exact hfirst.completes

/-- Three bytes on a disk that is full, and on one that takes a byte first. -/
theorem not_saves_short :
    ¬Saves (Picture.save ⟨[71, 73, 70], 3, by decide, by decide⟩ 110 104) (RoomyDisk.empty 0).disk
        (constructLocalGifFilename 110 104) [71, 73, 70] (Stream'.const 0) ∧
      ¬Saves (Picture.save ⟨[71, 73, 70], 3, by decide, by decide⟩ 110 104)
        (RoomyDisk.empty 0).disk (constructLocalGifFilename 110 104) [71, 73, 70]
        (Stream'.cons 1 (Stream'.const 3)) := by
  have hno {σ : Stream' Nat} (hσ : ¬FirstTakesAll 3 σ) :
      ¬Saves (Picture.save ⟨[71, 73, 70], 3, by decide, by decide⟩ 110 104)
        (RoomyDisk.empty 0).disk (constructLocalGifFilename 110 104) [71, 73, 70] σ := by
    intro hsaves
    rcases (save_saves_iff ⟨[71, 73, 70], 3, by decide, by decide⟩ 110 104).mp hsaves with
      hread | ⟨n, hn⟩
    · cases hread
    · exact hσ (firstTakesAll_of_completes (by decide) n σ hn)
  constructor
  · refine hno ?_
    rintro ⟨n, -, hn⟩
    exact absurd hn (Nat.not_succ_le_zero 2)
  · refine hno ?_
    rintro ⟨n, hzero, hn⟩
    cases n with
    | zero => exact absurd hn (show ¬(3 ≤ 1) by omega)
    | succ n => exact absurd (hzero 0 (Nat.succ_pos n)) (show 1 ≠ 0 from Nat.one_ne_zero)

end StateProtocol.Data.Local
