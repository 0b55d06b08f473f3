import StateProtocol.Data.Files

/-!
# Fields and their newlines

The last field of a record comes out of `find_data` with the newline of its
line, and the version 1 servers cut the last character off when they are asked
for it. So what they send is the field exactly when the newline is where they
expect it: behind the field with index 4, and behind no other. A database is
`Tidy` at a state code and an index when the scan returns and that is so.
-/

namespace StateProtocol.Data

open StateProtocol.Clib

/-- The text of a field: what was read, without the newline of its line. -/
def withoutNewline (t : Bytes) : Bytes := if t.getLast? = some newline then t.dropLast else t

/-- The field that `find_data` finds. -/
def textField (db : Bytes) (char1 char2 : UInt8) (index : Nat) : Option Bytes :=
  match findIn db char1 char2 index with
  | .ok (some data) => some (withoutNewline data.bytes)
  | _ => none

/-- The scan returns, and a field it finds has its newline exactly when it is
the last of its record. -/
def Tidy (db : Bytes) (char1 char2 : UInt8) (index : Nat) : Prop :=
  match findIn db char1 char2 index with
  | .error _ => False
  | .ok none => True
  | .ok (some data) => data.bytes.getLast? = some newline ↔ index = 4

theorem withoutNewline_subset (t : Bytes) : withoutNewline t ⊆ t := by
  unfold withoutNewline
  split
  · exact List.dropLast_subset t
  · exact fun _ h => h

theorem withoutNewline_length_le (t : Bytes) : (withoutNewline t).length ≤ t.length := by
  unfold withoutNewline
  split
  · rw [List.length_dropLast]
    omega
  · exact Nat.le_refl _

/-- `if (opcode == 4) data[strlen(data) - 1] = '\0';` -/
def cutLast {σ : Type} (opcode : UInt8) (data : CString) : C σ CString :=
  if opcode = 4 then
    if data.strlen = 0 then throw .fault
    else pure data.dropLast
  else pure data

/-- The text that is left. -/
def cutText (opcode : UInt8) (data : CString) : CString :=
  if opcode = 4 then data.dropLast else data

variable {opcode : UInt8} {data : CString}

theorem cutLast_run {σ : Type} (hne : data.bytes ≠ []) (s : σ) :
    cutLast opcode data s = .ok (cutText opcode data) s := by
  have hlen : data.strlen ≠ 0 := fun h => hne (List.length_eq_zero_iff.mp h)
  unfold cutLast cutText
  by_cases h4 : opcode = 4
  · rw [if_pos h4, if_pos h4, if_neg hlen]
    rfl
  · rw [if_neg h4, if_neg h4]
    rfl

theorem cutText_strlen_le : (cutText opcode data).strlen ≤ data.strlen := by
  unfold cutText
  split
  · show data.bytes.dropLast.length ≤ data.bytes.length
    rw [List.length_dropLast]
    omega
  · exact Nat.le_refl _

/-- The text is the field exactly when the newline stands where it is expected. -/
theorem cutText_eq_iff (hne : data.bytes ≠ []) :
    (cutText opcode data).bytes = withoutNewline data.bytes ↔
      (data.bytes.getLast? = some newline ↔ opcode.toNat = 4) := by
  have hshort : data.bytes.dropLast ≠ data.bytes := by
    intro h
    have hlen := congrArg List.length h
    have hpos := List.length_pos_iff.mpr hne
    rw [List.length_dropLast] at hlen
    omega
  have hop : opcode.toNat = 4 ↔ opcode = 4 := UInt8.toNat_inj (b := 4)
  unfold cutText withoutNewline
  rw [hop]
  by_cases h4 : opcode = 4
  · rw [if_pos h4, iff_true_right h4, CString.dropLast]
    by_cases hnl : data.bytes.getLast? = some newline
    · rw [if_pos hnl]
      exact iff_of_true rfl hnl
    · rw [if_neg hnl]
      exact iff_of_false hshort hnl
  · rw [if_neg h4, iff_false_right h4]
    by_cases hnl : data.bytes.getLast? = some newline
    · rw [if_pos hnl]
      exact iff_of_false hshort.symm fun h => h hnl
    · rw [if_neg hnl]
      exact iff_of_true rfl hnl

end StateProtocol.Data
