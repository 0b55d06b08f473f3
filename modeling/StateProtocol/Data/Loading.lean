import StateProtocol.Clib.Client
import StateProtocol.Data.Files
import Mathlib.Algebra.GroupWithZero.Nat

/-!
# The loop of `load_gif`, read by read

`load_gif` takes the size of the file, allocates one byte more, and then asks
`fread` for that size again and again, each time behind what it has, until nothing
comes. An empty read is the end of the file or an error, and the loop does not
tell them apart.

So a file that still has its size is returned whole if no read fails, and
otherwise cut off at the failure, with nulls in place of the rest
(`loadBytes_reads`). Nothing keeps the loop inside of the allocation but the size
of the file: one that has grown by more than a byte since the size was taken may be
read past the end (`loadBytes_law`).
-/

namespace StateProtocol.Data

open StateProtocol.Clib

/-- An open file: what has not been read, and how much the coming `fread` calls
hand out at the most. -/
structure Reader where
  rest : Bytes
  counts : List Nat

/-- `fread(…, 1, count, file)`: the bytes that are read. -/
def fread (count : Nat) : C Reader Bytes := fun r =>
  match r.counts with
  | [] => .error .blocked r
  | k :: ks => .ok (r.rest.take (min k count)) ⟨r.rest.drop (min k count), ks⟩

/-- The loop of `load_gif`, with `total` bytes counted. -/
def readLoop (fileSize : Nat) : (calls : Nat) → (total : Int32) →
    List.Vector UInt8 (fileSize + 1) → C Reader (List.Vector UInt8 (fileSize + 1))
  | 0, _, _ => throw .blocked
  | calls + 1, total, fileData => do
    let bytes ← fread fileSize
    let fileData ← storeFrom fileData total.toInt bytes
    let bytesRead := Int32.ofNat bytes.length
    let total := total + bytesRead
    if bytesRead = 0 then return fileData
    else readLoop fileSize calls total fileData

/-- The allocation and its loop. Each call of `fread` uses up a count, so their
number bounds the calls. -/
def loadBytes (fileSize : Nat) (total : Int32) (fileData : List.Vector UInt8 (fileSize + 1)) :
    C Reader (List.Vector UInt8 (fileSize + 1)) := fun r =>
  readLoop fileSize (r.counts.length + 1) total fileData r

section

variable {fileSize : Nat} {pre : Bytes} {r : Reader}

theorem loadBytes_blocked (total : Int32) (fileData : List.Vector UInt8 (fileSize + 1))
    (h : r.counts = []) : loadBytes fileSize total fileData r = .error .blocked r := by
  have hread : fread fileSize r = .error .blocked r := by
    unfold fread
    rw [h]
  rw [loadBytes, readLoop]
  exact bind_of_error hread

/-- One round, with `pre` in the buffer. -/
theorem loadBytes_step {k : Nat} {ks : List Nat} (h : r.counts = k :: ks)
    (h31 : pre.length + r.rest.length < 2 ^ 31) :
    loadBytes fileSize (Int32.ofNat pre.length) (zeroPad (fileSize + 1) pre) r =
      if r.rest.take (min k fileSize) = [] then
        .ok (zeroPad (fileSize + 1) pre) ⟨r.rest.drop (min k fileSize), ks⟩
      else if fileSize + 1 < pre.length + (r.rest.take (min k fileSize)).length then
        .error .fault ⟨r.rest.drop (min k fileSize), ks⟩
      else loadBytes fileSize (Int32.ofNat (pre ++ r.rest.take (min k fileSize)).length)
        (zeroPad (fileSize + 1) (pre ++ r.rest.take (min k fileSize)))
        ⟨r.rest.drop (min k fileSize), ks⟩ := by
  have hread : fread fileSize r
      = .ok (r.rest.take (min k fileSize)) ⟨r.rest.drop (min k fileSize), ks⟩ := by
    unfold fread
    rw [h]
  have hlen : (r.rest.take (min k fileSize)).length ≤ r.rest.length := List.length_take_le' _ _
  have hsum := Int32.ofNat_add pre.length (r.rest.take (min k fileSize)).length
  rw [loadBytes, readLoop, bind_of_ok hread, h]
  generalize r.rest.take (min k fileSize) = bytes at hlen hsum ⊢
  generalize hs : (⟨r.rest.drop (min k fileSize), ks⟩ : Reader) = s
  have hat : (Int32.ofNat pre.length).toInt = pre.length := Int32.toInt_ofNat_of_lt (by omega)
  have hzero : Int32.ofNat bytes.length = 0 ↔ bytes = [] := by
    rw [← Int32.toInt_inj, Int32.toInt_ofNat_of_lt (by omega), Int32.toInt_zero,
      ← List.length_eq_zero_iff]
    omega
  rw [hat]
  by_cases hnil : bytes = []
  · subst hnil
    rw [if_pos rfl]
    rfl
  · rw [if_neg hnil]
    by_cases hout : fileSize + 1 < pre.length + bytes.length
    · rw [if_pos hout]
      exact bind_of_error (storeFrom_fault bytes _ _ s hnil (Or.inr (by omega)))
    · rw [if_neg hout]
      refine (bind_of_ok (storeFrom_run bytes pre s (Nat.not_lt.mp hout))).trans ?_
      rw [if_neg (mt hzero.mp hnil), ← hsum, List.length_append, Int32.ofNat_add, loadBytes, ← hs]
      rfl

/-- Inside of the allocation the loop ends with what was read before the first empty
read. -/
theorem loadBytes_reads : ∀ (ks : List Nat) (pre : Bytes) (k : Nat) (r : Reader) (more : List Nat),
    r.counts = ks ++ k :: more → (∀ j ∈ ks, 1 ≤ j ∧ j ≤ fileSize) →
    (k = 0 ∨ r.rest.length ≤ ks.sum) → pre.length + r.rest.length ≤ fileSize + 1 →
    pre.length + r.rest.length < 2 ^ 31 →
    ∃ s, loadBytes fileSize (Int32.ofNat pre.length) (zeroPad (fileSize + 1) pre) r
      = .ok (zeroPad (fileSize + 1) (pre ++ r.rest.take ks.sum)) s
  | [], pre, k, r, more, hcounts, _, hstop, hroom, h31 => by
    have hnone : r.rest.take (min k fileSize) = [] := by
      rcases hstop with rfl | hend
      · rw [Nat.zero_min, List.take_zero]
      · rw [List.length_eq_zero_iff.mp (Nat.le_zero.mp hend), List.take_nil]
    rw [loadBytes_step hcounts h31, if_pos hnone, List.sum_nil, List.take_zero,
      List.append_nil]
    exact ⟨_, rfl⟩
  | j :: ks, pre, k, r, more, hcounts, hks, hstop, hroom, h31 => by
    obtain ⟨⟨hpos, hle⟩, htail⟩ := List.forall_mem_cons.mp hks
    have hmin : min j fileSize = j := Nat.min_eq_left hle
    rw [loadBytes_step hcounts h31, hmin, List.sum_cons]
    by_cases hnone : r.rest.take j = []
    · -- the end of the file is before the count is used up
      have hrest : r.rest = [] := by
        rcases List.take_eq_nil_iff.mp hnone with hj | hrest
        · omega
        · exact hrest
      rw [if_pos hnone, hrest, List.take_nil, List.append_nil]
      exact ⟨_, rfl⟩
    · have hlen : (r.rest.take j).length ≤ r.rest.length := List.length_take_le' _ _
      have hdrop : (r.rest.drop j).length = r.rest.length - j := List.length_drop
      have htake : (r.rest.take j).length + (r.rest.drop j).length = r.rest.length := by
        rw [← List.length_append, List.take_append_drop]
      rw [if_neg hnone, if_neg (by omega)]
      obtain ⟨s, hs⟩ := loadBytes_reads ks (pre ++ r.rest.take j) k ⟨r.rest.drop j, _⟩ more rfl htail
        (hstop.imp_right fun hend => by
          rw [List.sum_cons] at hend
          show (r.rest.drop j).length ≤ ks.sum
          omega)
        (by rw [List.length_append]; show _ + (r.rest.drop j).length ≤ _; omega)
        (by rw [List.length_append]; show _ + (r.rest.drop j).length < _; omega)
      refine ⟨s, hs.trans ?_⟩
      rw [List.append_assoc, List.take_add]

/-- A file that has its size, or a byte more, stays inside. -/
theorem loadBytes_inside : ∀ (counts : List Nat) (pre : Bytes) (r : Reader), r.counts = counts →
    pre.length + r.rest.length ≤ fileSize + 1 → pre.length + r.rest.length < 2 ^ 31 →
    ∀ s, loadBytes fileSize (Int32.ofNat pre.length) (zeroPad (fileSize + 1) pre) r
      ≠ .error .fault s
  | [], pre, r, hcounts, _, _, s => by
    rw [loadBytes_blocked _ _ hcounts]
    nofun
  | k :: ks, pre, r, hcounts, hroom, h31, s => by
    have htake : (r.rest.take (min k fileSize)).length + (r.rest.drop (min k fileSize)).length
        = r.rest.length := by rw [← List.length_append, List.take_append_drop]
    rw [loadBytes_step hcounts h31]
    split
    · nofun
    · rw [if_neg (by omega)]
      refine loadBytes_inside ks _ ⟨_, ks⟩ rfl ?_ ?_ s
      · rw [List.length_append]
        show _ + (r.rest.drop (min k fileSize)).length ≤ _
        omega
      · rw [List.length_append]
        show _ + (r.rest.drop (min k fileSize)).length < _
        omega

/-- And of a file that was empty nothing is read. -/
theorem loadBytes_empty (total : Int32) (fileData : List.Vector UInt8 1) (r : Reader) :
    ∀ s, loadBytes 0 total fileData r ≠ .error .fault s := by
  intro s
  cases hcounts : r.counts with
  | nil =>
    rw [loadBytes_blocked total fileData hcounts]
    nofun
  | cons k ks =>
    have hread : fread 0 r = .ok [] ⟨r.rest, ks⟩ := by
      unfold fread
      rw [hcounts]
      dsimp only
      rw [Nat.min_zero, List.take_zero, List.drop_zero]
    rw [loadBytes, readLoop, bind_of_ok hread]
    nofun

/-- A longer one does not, if it comes byte by byte. -/
theorem loadBytes_outside (hpos : 1 ≤ fileSize) : ∀ (rest pre : Bytes),
    pre.length ≤ fileSize + 1 → fileSize + 1 < pre.length + rest.length →
    pre.length + rest.length < 2 ^ 31 →
    ∃ s, loadBytes fileSize (Int32.ofNat pre.length) (zeroPad (fileSize + 1) pre)
      ⟨rest, List.replicate rest.length 1⟩ = .error .fault s
  | [], pre, hin, hout, _ => by
    rw [List.length_nil] at hout
    omega
  | b :: rest, pre, hin, hout, h31 => by
    have hone : min 1 fileSize = 1 := Nat.min_eq_left hpos
    rw [List.length_cons, List.replicate_succ, loadBytes_step rfl h31, hone, List.take_succ_cons,
      List.take_zero, List.drop_succ_cons, List.drop_zero, if_neg (List.cons_ne_nil b [])]
    rw [List.length_cons] at hout h31
    by_cases hlast : fileSize + 1 < pre.length + [b].length
    · rw [if_pos hlast]
      exact ⟨_, rfl⟩
    · rw [if_neg hlast]
      rw [List.length_singleton] at hlast
      refine loadBytes_outside hpos rest (pre ++ [b]) ?_ ?_ ?_
      · rw [List.length_append, List.length_singleton]
        omega
      · rw [List.length_append, List.length_singleton]
        omega
      · rw [List.length_append, List.length_singleton]
        omega

end

/-- **What the loop of `load_gif` reads**, of a file that had `fileSize` bytes when it
was measured. -/
theorem loadBytes_law (fileSize : Nat) (file : Bytes) (h31 : file.length < 2 ^ 31) :
    ((∀ counts s, loadBytes fileSize 0 (zeroPad (fileSize + 1) []) ⟨file, counts⟩
      ≠ .error .fault s) ↔ fileSize = 0 ∨ file.length ≤ fileSize + 1) ∧
    (file.length = fileSize → ∀ ks k more, (∀ j ∈ ks, 1 ≤ j ∧ j ≤ fileSize) →
      (k = 0 ∨ fileSize ≤ ks.sum) →
      ∃ v s, loadBytes fileSize 0 (zeroPad (fileSize + 1) []) ⟨file, ks ++ k :: more⟩ = .ok v s ∧
        v = zeroPad (fileSize + 1) (file.take ks.sum) ∧
        (fileSize ≤ ks.sum →
          v.toList.take fileSize = freadLoop file.length (file.length + 1) file [])) := by
  have hnil : ([] : Bytes).length + file.length = file.length := Nat.zero_add _
  refine ⟨⟨fun h => ?_, fun hor counts s => ?_⟩, ?_⟩
  · by_contra hnot
    obtain ⟨hne, hgt⟩ := not_or.mp hnot
    obtain ⟨s, hs⟩ := loadBytes_outside (Nat.pos_of_ne_zero hne) file [] (Nat.zero_le _)
      (by rw [hnil]; exact Nat.not_le.mp hgt) (by rwa [hnil])
    exact h _ s hs
  · rcases hor with rfl | hle
    · exact loadBytes_empty _ _ _ s
    · exact loadBytes_inside counts [] ⟨file, counts⟩ rfl (hnil.trans_le hle)
        (hnil.trans_lt h31) s
  · rintro rfl ks k more hks hstop
    obtain ⟨s, hs⟩ := loadBytes_reads ks [] k ⟨file, ks ++ k :: more⟩ more rfl hks hstop
      (hnil.trans_le (Nat.le_succ _)) (hnil.trans_lt h31)
    refine ⟨_, s, hs, rfl, fun hall => ?_⟩
    rw [freadLoop_eq, List.nil_append, List.take_of_length_le hall, zeroPad_toList,
      List.take_of_length_le (Nat.le_succ _), List.take_left]

/-- A file of three bytes that comes in two reads. -/
theorem loadBytes_law_three :
    (∀ counts s, loadBytes 3 0 (zeroPad 4 []) ⟨[71, 73, 70], counts⟩ ≠ .error .fault s) ∧
    ∃ v s, loadBytes 3 0 (zeroPad 4 []) ⟨[71, 73, 70], [1, 2, 3]⟩ = .ok v s ∧
      v = zeroPad 4 [71, 73, 70] := by
  obtain ⟨hinside, hreads⟩ := loadBytes_law 3 [71, 73, 70] (by decide)
  obtain ⟨v, s, hrun, hv, -⟩ := hreads rfl [1, 2] 3 [] (by decide) (Or.inr (Nat.le_refl 3))
  exact ⟨hinside.mpr (Or.inr (Nat.le_succ 3)), v, s, hrun, hv⟩

end StateProtocol.Data
