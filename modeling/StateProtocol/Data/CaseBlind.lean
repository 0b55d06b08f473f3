import StateProtocol.Data.Files
import Mathlib.Data.List.GetD

/-!
# The case of a state code

Two characters that differ in case only have the same lower case, so they have the
same upper case, and one is a given character that is no letter exactly if the
other is. All that the data library makes of a state code it makes of its upper
or lower case: `CaseBlind` is a library that cannot tell such codes apart, and the
one on the disk is (`onDisk_caseBlind`), whatever the files are called.
-/

namespace StateProtocol.Data

open StateProtocol.Clib

/-! ## Characters -/

section Characters

variable {c d : UInt8}

theorem toNat_tolower (c : UInt8) : (tolower c).toNat
    = if 65 ≤ c.toNat ∧ c.toNat ≤ 90 then c.toNat + 32 else c.toNat := by
  have hiff : 65 ≤ c ∧ c ≤ 90 ↔ 65 ≤ c.toNat ∧ c.toNat ≤ 90 := by
    rw [UInt8.le_iff_toNat_le, UInt8.le_iff_toNat_le]
    rfl
  have h32 : (32 : UInt8).toNat = 32 := rfl
  by_cases h : 65 ≤ c.toNat ∧ c.toNat ≤ 90
  · rw [tolower, if_pos (hiff.mpr h), if_pos h, UInt8.toNat_add, h32]
    omega
  · rw [tolower, if_neg (mt hiff.mp h), if_neg h]

theorem toNat_toupper (c : UInt8) : (toupper c).toNat
    = if 97 ≤ c.toNat ∧ c.toNat ≤ 122 then c.toNat - 32 else c.toNat := by
  have hiff : 97 ≤ c ∧ c ≤ 122 ↔ 97 ≤ c.toNat ∧ c.toNat ≤ 122 := by
    rw [UInt8.le_iff_toNat_le, UInt8.le_iff_toNat_le]
    rfl
  have h32 : (32 : UInt8).toNat = 32 := rfl
  by_cases h : 97 ≤ c.toNat ∧ c.toNat ≤ 122
  · have hle : (32 : UInt8) ≤ c := UInt8.le_iff_toNat_le.mpr (by omega)
    rw [toupper, if_pos (hiff.mpr h), if_pos h, UInt8.toNat_sub_of_le _ _ hle, h32]
  · rw [toupper, if_neg (mt hiff.mp h), if_neg h]

/-- Nothing is lost on the way to the upper case. -/
theorem toupper_tolower (c : UInt8) : toupper (tolower c) = toupper c := by
  rw [← UInt8.toNat_inj, toNat_toupper, toNat_toupper, toNat_tolower]
  by_cases h : 65 ≤ c.toNat ∧ c.toNat ≤ 90
  · rw [if_pos h, if_pos (by omega), if_neg (by omega)]
    omega
  · rw [if_neg h]

/-- A byte below the letters is its own lower case, and only its own. -/
theorem tolower_eq_iff (hd : d.toNat < 65) : tolower c = d ↔ c = d := by
  rw [← UInt8.toNat_inj, ← UInt8.toNat_inj, toNat_tolower]
  split <;> omega

theorem toupper_congr (h : tolower c = tolower d) : toupper c = toupper d := by
  rw [← toupper_tolower c, h, toupper_tolower]

theorem eq_iff_of_tolower (h : tolower c = tolower d) {b : UInt8} (hb : b.toNat < 65) :
    c = b ↔ d = b := by
  rw [← tolower_eq_iff hb, h, tolower_eq_iff hb]

end Characters

/-! ## State codes -/

section Codes

variable {σ : Type} {a b a' b' : UInt8}

theorem noStateMsg_congr (ha : tolower a = tolower a') (hb : tolower b = tolower b') :
    noStateMsg a b = noStateMsg a' b' := by
  rw [noStateMsg, noStateMsg, ha, hb]

theorem constructGifFilename_congr (ha : tolower a = tolower a') (hb : tolower b = tolower b') :
    constructGifFilename a b = constructGifFilename a' b' := by
  rw [constructGifFilename, constructGifFilename, ha, hb]

theorem findIn_congr (db : Bytes) (ha : tolower a = tolower a') (hb : tolower b = tolower b')
    (index : Nat) : findIn db a b index = findIn db a' b' index := by
  rw [findIn, findIn, stateCode, stateCode, toupper_congr ha, toupper_congr hb]

/-- A library that answers alike for state codes that differ in case. -/
structure CaseBlind (lib : DataUtils σ) : Prop where
  findData : ∀ {a b a' b' : UInt8} (index : Nat), tolower a = tolower a' →
    tolower b = tolower b' → lib.findData a b index = lib.findData a' b' index
  loadGif : ∀ {a b a' b' : UInt8}, tolower a = tolower a' → tolower b = tolower b' →
    lib.loadGif a b = lib.loadGif a' b'

/-- The one on the disk. -/
theorem onDisk_caseBlind (host : Host) : CaseBlind (onDisk host) where
  findData index ha hb := by
    show Data.findData host _ _ index = Data.findData host _ _ index
    unfold Data.findData
    simp only [findIn_congr _ ha hb index]
  loadGif ha hb := by
    show Data.loadGif host _ _ = Data.loadGif host _ _
    rw [Data.loadGif, Data.loadGif, constructGifFilename_congr ha hb]

end Codes

/-! ## Messages -/

/-- Two messages that differ in the case of their state codes at the most, which are
their third and fourth bytes. -/
structure SameButCase (m m' : Bytes) : Prop where
  front : m.take 2 = m'.take 2
  code : ((m.drop 2).take 2).map tolower = ((m'.drop 2).take 2).map tolower
  back : m.drop 4 = m'.drop 4

namespace SameButCase

variable {m m' : Bytes}

theorem length_eq (h : SameButCase m m') : m.length = m'.length := by
  have hfront := congrArg List.length h.front
  have hcode := congrArg List.length h.code
  have hback := congrArg List.length h.back
  simp only [List.length_take, List.length_map, List.length_drop] at hfront hcode hback
  omega

/-- The beginnings of such messages are of the kind, too. -/
theorem take (h : SameButCase m m') (k : Nat) : SameButCase (m.take k) (m'.take k) := by
  have hswap (l : Bytes) (i j : Nat) : (l.take i).take j = (l.take j).take i := by
    rw [List.take_take, List.take_take, Nat.min_comm]
  refine ⟨?_, ?_, ?_⟩
  · rw [hswap, h.front, hswap]
  · rw [List.drop_take, List.drop_take, hswap, List.map_take, h.code, ← List.map_take, hswap]
  · rw [List.drop_take, List.drop_take, h.back]

/-- A byte in front of the state code. -/
theorem getD_front (h : SameButCase m m') {i : Nat} (hi : i < 2) : m.getD i 0 = m'.getD i 0 := by
  rw [← getD_take hi, h.front, getD_take hi]

/-- A character of it. -/
theorem getD_code (h : SameButCase m m') {i : Nat} (hi : i < 2) :
    tolower (m.getD (2 + i) 0) = tolower (m'.getD (2 + i) 0) := by
  have hget (l : Bytes) :
      (((l.drop 2).take 2).map tolower).getD i 0 = tolower (l.getD (2 + i) 0) := by
    have hmap : (((l.drop 2).take 2).map tolower).getD i (tolower 0)
        = tolower (((l.drop 2).take 2).getD i 0) := List.getD_map _ _ tolower
    have hdrop : (l.drop 2).getD i 0 = l.getD (2 + i) 0 := by
      rw [List.getD_eq_getElem?_getD, List.getElem?_drop, ← List.getD_eq_getElem?_getD]
    rw [getD_take hi, hdrop] at hmap
    exact hmap
  rw [← hget, h.code, hget]

end SameButCase

end StateProtocol.Data
