import Mathlib.Algebra.Group.Nat.Defs
import Mathlib.Data.List.Basic
import Mathlib.Data.List.TakeWhile
import Mathlib.Data.Vector.Basic

/-!
# Bytes, C strings and network words

The values a C program puts on a wire: byte sequences, null-terminated strings,
zero-filled arrays of a fixed size and 32-bit words in network order.

* `CString` carries the absence of a null byte as a field, so a string taken out
  of a zero-filled array is the string that was put in (`cstr_zeroPad`).
* A `UInt32` is what a little-endian machine holds; `wordBytes` is its image in
  memory and `htonl` the swap, so `wordBytes_htonl` says that a field assigned
  with `htonl` travels big-endian, which is what `beNat` reads back.
* C code that keeps a length in an `int` keeps it modulo 2³². `Int32.ofNat` is the
  conversion; up to 2³¹ it changes nothing, and from there on the number may have
  become negative or small.
-/

namespace StateProtocol.Clib

abbrev Bytes := List UInt8

/-- The bytes of an ASCII literal of the source. -/
def ascii (s : String) : Bytes := s.toList.map fun c => UInt8.ofNat c.toNat

/-! ## Character classes of the C locale -/

/-- `toupper`: only the letters `a`–`z` change. -/
def toupper (c : UInt8) : UInt8 := if 97 ≤ c ∧ c ≤ 122 then c - 32 else c

/-- `tolower`: only the letters `A`–`Z` change. -/
def tolower (c : UInt8) : UInt8 := if 65 ≤ c ∧ c ≤ 90 then c + 32 else c

theorem toupper_ne_zero {c : UInt8} (h : c ≠ 0) : toupper c ≠ 0 := by
  unfold toupper
  split
  next hl =>
    intro h0
    have h1 : c.toNat ≥ 97 := UInt8.le_iff_toNat_le.mp hl.1
    have h2 := congrArg UInt8.toNat h0
    rw [UInt8.toNat_sub_of_le _ _ (UInt8.le_iff_toNat_le.mpr (by simp; omega))] at h2
    simp at h2
    omega
  next => exact h

theorem tolower_ne_zero {c : UInt8} (h : c ≠ 0) : tolower c ≠ 0 := by
  unfold tolower
  split
  next hl =>
    intro h0
    have h1 : c.toNat ≤ 90 := UInt8.le_iff_toNat_le.mp hl.2
    have h2 := congrArg UInt8.toNat h0
    rw [UInt8.toNat_add] at h2
    simp at h2
    omega
  next => exact h

/-! ## C strings -/

/-- The characters of a C string: any bytes but the terminating null. -/
structure CString where
  bytes : Bytes
  noNull : 0 ∉ bytes
deriving DecidableEq, Repr

@[ext] theorem CString.ext {s t : CString} (h : s.bytes = t.bytes) : s = t := by
  cases s
  cases t
  cases h
  rfl

/-- `strlen`. -/
def CString.strlen (s : CString) : Nat := s.bytes.length

/-- The string once a null has replaced its last character. -/
def CString.dropLast (s : CString) : CString where
  bytes := s.bytes.dropLast
  noNull h := s.noNull (List.dropLast_subset _ h)

/-- The string a pointer to `buf` denotes: everything before the first null. -/
def cstr (buf : Bytes) : CString where
  bytes := buf.takeWhile (· ≠ 0)
  noNull h := by simpa using List.mem_takeWhile_imp h

@[simp] theorem cstr_bytes_of_noNull {bs : Bytes} (h : 0 ∉ bs) : (cstr bs).bytes = bs := by
  show bs.takeWhile _ = bs
  rw [List.takeWhile_eq_self_iff]
  intro b hb
  simpa using fun h0 : b = 0 => h (h0 ▸ hb)

theorem cstr_append_null {bs : Bytes} (h : 0 ∉ bs) (rest : Bytes) :
    (cstr (bs ++ 0 :: rest)).bytes = bs := by
  show (bs ++ 0 :: rest).takeWhile _ = bs
  rw [List.takeWhile_append_of_pos]
  · simp
  · intro b hb
    simpa using fun h0 : b = 0 => h (h0 ▸ hb)

/-- A byte before the cut. -/
theorem getD_take {bs : Bytes} {i k : Nat} (h : i < k) : (bs.take k).getD i 0 = bs.getD i 0 := by
  rw [List.getD_eq_getElem?_getD, List.getElem?_take_of_lt h, ← List.getD_eq_getElem?_getD]

/-! ## Cleared arrays -/

/-- An array of `n` cells `z` that received `xs` from its start, as far as it
fits. -/
def padTo {α : Type} (z : α) (n : Nat) (xs : List α) : List.Vector α n :=
  ⟨xs.take n ++ List.replicate (n - xs.length) z, by simp; omega⟩

theorem padTo_toList {α : Type} (z : α) (n : Nat) (xs : List α) :
    (padTo z n xs).toList = xs.take n ++ List.replicate (n - xs.length) z := rfl

/-- Storing into the first free cell. -/
theorem padTo_set {α : Type} {z : α} {n : Nat} {xs : List α} (h : xs.length < n) (x : α) :
    (padTo z n xs).set ⟨xs.length, h⟩ x = padTo z n (xs ++ [x]) := by
  apply List.Vector.toList_injective
  rw [List.Vector.toList_set, padTo_toList, padTo_toList]
  obtain ⟨k, hk⟩ : ∃ k, n - xs.length = k + 1 := ⟨n - xs.length - 1, by omega⟩
  rw [List.take_of_length_le (by omega), List.take_of_length_le (by simp; omega), hk,
    List.length_append, List.length_singleton, show n - (xs.length + 1) = k by omega,
    List.replicate_succ, List.set_append_right _ _ (Nat.le_refl _), Nat.sub_self,
    List.set_cons_zero]
  simp

/-- Free cells that give nothing do not show. -/
theorem padTo_flatMap {α β : Type} {z : α} {n : Nat} {xs : List α} {f : α → List β}
    (hz : f z = []) (h : xs.length ≤ n) : (padTo z n xs).toList.flatMap f = xs.flatMap f := by
  rw [padTo_toList, List.take_of_length_le h, List.flatMap_append, List.append_right_eq_self]
  refine List.flatMap_eq_nil_iff.mpr fun x hx => ?_
  rw [List.eq_of_mem_replicate hx]
  exact hz

/-- An array of bytes that was cleared before `bs` was put into it. -/
def zeroPad (n : Nat) (bs : Bytes) : List.Vector UInt8 n := padTo 0 n bs

@[simp] theorem zeroPad_toList (n : Nat) (bs : Bytes) :
    (zeroPad n bs).toList = bs.take n ++ List.replicate (n - bs.length) 0 := rfl

/-- A cell holds the byte that was put there, or null. -/
theorem zeroPad_get {n : Nat} (bs : Bytes) {i : Nat} (h : i < n) :
    (zeroPad n bs).get ⟨i, h⟩ = bs.getD i 0 := by
  have hlen : i < (bs.take n ++ List.replicate (n - bs.length) 0).length := by simp; omega
  show (bs.take n ++ List.replicate (n - bs.length) 0)[i] = bs.getD i 0
  rw [List.getD_eq_getElem?_getD]
  rcases Nat.lt_or_ge i bs.length with hi | hi
  · rw [List.getElem_append_left (by simp; omega), List.getElem_take, List.getElem?_eq_getElem hi]
    rfl
  · rw [List.getElem_append_right (by simp; omega), List.getElem_replicate,
      List.getElem?_eq_none hi]
    rfl

/-- Behind its first cells the array is one of the bytes that are left. -/
theorem zeroPad_drop (n k : Nat) (bs : Bytes) :
    (zeroPad n bs).toList.drop k = (zeroPad (n - k) (bs.drop k)).toList := by
  rw [zeroPad_toList, zeroPad_toList, List.drop_append, List.drop_take, List.drop_replicate,
    List.length_take, List.length_drop]
  congr 2
  omega

/-- The string in a zero-filled array is what was written, cut to the array. -/
theorem cstr_zeroPad {n : Nat} {bs : Bytes} (h : 0 ∉ bs) :
    (cstr (zeroPad n bs).toList).bytes = bs.take n := by
  have hn : 0 ∉ bs.take n := fun h0 => h (List.mem_of_mem_take h0)
  rw [zeroPad_toList]
  cases hk : n - bs.length with
  | zero => simp [hn]
  | succ k => rw [List.replicate_succ, cstr_append_null hn]

/-- Two strings that fit can be told apart in the array. -/
theorem zeroPad_injOn {n : Nat} {as bs : Bytes} (ha : 0 ∉ as) (hb : 0 ∉ bs)
    (hal : as.length ≤ n) (hbl : bs.length ≤ n) (h : zeroPad n as = zeroPad n bs) : as = bs := by
  have hs := congrArg (fun v => (cstr v.toList).bytes) h
  simp only [cstr_zeroPad ha, cstr_zeroPad hb] at hs
  rwa [List.take_of_length_le hal, List.take_of_length_le hbl] at hs

/-! ## 32-bit words -/

/-- The four bytes of a word, most significant first. -/
def beBytes (w : UInt32) : Bytes :=
  [(w >>> 24).toUInt8, (w >>> 16).toUInt8, (w >>> 8).toUInt8, w.toUInt8]

/-- The memory image of a word on a little-endian machine. -/
def wordBytes (w : UInt32) : Bytes := (beBytes w).reverse

/-- The number four bytes stand for in network order. -/
def beNat (bs : Bytes) : Nat := bs.foldl (fun acc b => acc * 256 + b.toNat) 0

/-- `htonl` of a little-endian machine: the memory image read the other way
round. -/
def htonl (w : UInt32) : UInt32 := UInt32.ofNat (beNat (wordBytes w))

/-- The word that a little-endian machine finds in four bytes. -/
def loadWord (bs : Bytes) : UInt32 := UInt32.ofNat (beNat bs.reverse)

/-- `ntohl` of a little-endian machine: the same swap. -/
def ntohl (w : UInt32) : UInt32 := htonl w

@[simp] theorem beBytes_length (w : UInt32) : (beBytes w).length = 4 := rfl

@[simp] theorem wordBytes_length (w : UInt32) : (wordBytes w).length = 4 := rfl

theorem beNat_beBytes (w : UInt32) : beNat (beBytes w) = w.toNat := by
  have hw := w.toNat_lt
  simp [beNat, beBytes, Nat.shiftRight_eq_div_pow]
  omega

/-- The converse: four bytes are the digits of the number they stand for. -/
theorem beBytes_beNat (a b c d : UInt8) :
    beBytes (UInt32.ofNat (beNat [a, b, c, d])) = [a, b, c, d] := by
  have ha := a.toNat_lt
  have hb := b.toNat_lt
  have hc := c.toNat_lt
  have hd := d.toNat_lt
  have hval : beNat [a, b, c, d]
      = ((a.toNat * 256 + b.toNat) * 256 + c.toNat) * 256 + d.toNat := by simp [beNat]
  have hn : (UInt32.ofNat (beNat [a, b, c, d])).toNat
      = ((a.toNat * 256 + b.toNat) * 256 + c.toNat) * 256 + d.toNat := by
    rw [UInt32.toNat_ofNat', hval]
    exact Nat.mod_eq_of_lt (by omega)
  generalize UInt32.ofNat (beNat [a, b, c, d]) = w at hn ⊢
  simp only [beBytes, List.cons.injEq, and_true]
  refine ⟨?_, ?_, ?_, ?_⟩ <;>
  · apply UInt8.toNat_inj.mp
    simp only [UInt32.toNat_toUInt8, UInt32.toNat_shiftRight, hn,
      Nat.shiftRight_eq_div_pow, UInt32.toNat_ofNat, Nat.reducePow, Nat.reduceMod]
    omega

/-- A field assigned with `htonl` is big-endian in memory. -/
theorem wordBytes_htonl (w : UInt32) : wordBytes (htonl w) = beBytes w := by
  have h := beBytes_beNat w.toUInt8 (w >>> 8).toUInt8 (w >>> 16).toUInt8 (w >>> 24).toUInt8
  show (beBytes (htonl w)).reverse = beBytes w
  rw [show beBytes (htonl w) = (beBytes w).reverse from h, List.reverse_reverse]

theorem wordBytes_injective {v w : UInt32} (h : wordBytes v = wordBytes w) : v = w := by
  have hb := congrArg beNat (List.reverse_injective h)
  rw [beNat_beBytes, beNat_beBytes] at hb
  exact UInt32.toNat_inj.mp hb

theorem loadWord_wordBytes (w : UInt32) : loadWord (wordBytes w) = w := by
  rw [loadWord, wordBytes, List.reverse_reverse, beNat_beBytes, UInt32.ofNat_toNat]

/-- A word that travelled big-endian is read back with `ntohl`. -/
theorem ntohl_loadWord (w : UInt32) : ntohl (loadWord (beBytes w)) = w := by
  have htwice : wordBytes (htonl (htonl w)) = wordBytes w := by
    rw [wordBytes_htonl, ← List.reverse_reverse (beBytes (htonl w)), ← wordBytes, wordBytes_htonl,
      wordBytes]
  rw [← wordBytes_htonl, loadWord_wordBytes]
  exact wordBytes_injective htwice

/-! ## Lengths as `int` -/

/-- How often `for (int i = 0; i < len; i++)` goes round when `len` is an `int`
parameter and the caller's length is wider. -/
def intCount (len : Nat) : Nat := (Int32.ofNat len).toNatClampNeg

theorem intCount_of_lt {len : Nat} (h : len < 2 ^ 31) : intCount len = len :=
  Int32.toNatClampNeg_ofNat_of_lt h

/-- The remainder of the length, where it is not negative as an `int`. -/
theorem intCount_eq (len : Nat) :
    intCount len = if len % 2 ^ 32 < 2 ^ 31 then len % 2 ^ 32 else 0 := by
  show (Int32.ofNat len).toInt.toNat = _
  rw [Int32.toInt_ofNat', Int.bmod_def, Int32.size]
  split <;> split <;> omega

theorem intCount_le (len : Nat) : intCount len ≤ len := by
  rw [intCount_eq]
  split
  · exact Nat.mod_le len _
  · exact Nat.zero_le len

/-- The sign bit of a 32-bit number. -/
theorem ofNat_neg_iff {n : Nat} (h : n < 2 ^ 32) : Int32.ofNat n < 0 ↔ 2 ^ 31 ≤ n := by
  rw [Int32.lt_iff_toInt_lt, Int32.toInt_ofNat', Int32.toInt_zero, Int.bmod_def, Int32.size]
  split <;> omega

end StateProtocol.Clib
