import StateProtocol.Clib.Process

/-!
# The data library as its callers see it

The protocol code reaches the state data through three functions of
`lib/data_utils.c`: `find_data`, `load_gif` and `save_gif`. `DataUtils σ` is
that interface over a process state `σ`, so the protocol code can be run against
the files on disk (`Data/Files.lean`) as well as against an abstract table.

A `Lookup` is such a table: which string each state code has under each index,
and which flag. `ofLookup` serves it without touching the process; `traced`
also writes down every call, in order.
-/

namespace StateProtocol.Data

open StateProtocol.Clib

/-- The functions of `data_utils.c` that work on the stored data. -/
structure DataUtils (σ : Type) where
  findData : (char1 char2 : UInt8) → (index : Nat) → C σ (Option CString)
  loadGif : (char1 char2 : UInt8) → C σ (Option Bytes)
  saveGif : (char1 char2 : UInt8) → (buffer : Bytes) → C σ Unit

/-- What is stored for each state code. -/
structure Lookup where
  text : (char1 char2 : UInt8) → (index : Nat) → Option CString
  gif : (char1 char2 : UInt8) → Option Bytes

/-- The table that has the same string and the same flag under every key. -/
def Lookup.const (text : CString) (gif : Bytes) : Lookup where
  text _ _ _ := some text
  gif _ _ := some gif

/-- A data library that answers from a table and can save its local copies. -/
def ofLookup {σ : Type} (db : Lookup) : DataUtils σ where
  findData char1 char2 index := pure (db.text char1 char2 index)
  loadGif char1 char2 := pure (db.gif char1 char2)
  saveGif _ _ _ := pure ()

/-- A call that reads the stored data. -/
inductive Call
  | text (index : Nat)
  | gif
deriving DecidableEq, Repr

/-- A call for the state code, one of the four fields, or the flag. -/
def Call.InRange : Call → Prop
  | .text index => index ≤ 4
  | .gif => True

/-- The same library, with every call written down. -/
def traced (db : Lookup) : DataUtils (List Call) where
  findData char1 char2 index calls := .ok (db.text char1 char2 index) (calls ++ [.text index])
  loadGif char1 char2 calls := .ok (db.gif char1 char2) (calls ++ [.gif])
  saveGif _ _ _ := pure ()

/-- `no_state_msg`: `"Error - No such state code %c%c"` in a buffer of 31 bytes. -/
def noStateMsg (char1 char2 : UInt8) : CString :=
  cstr ((ascii "Error - No such state code " ++ [tolower char1, tolower char2]).take 30)

theorem noStateMsg_bytes {char1 char2 : UInt8} (h1 : char1 ≠ 0) (h2 : char2 ≠ 0) :
    (noStateMsg char1 char2).bytes
      = ascii "Error - No such state code " ++ [tolower char1, tolower char2] := by
  have hlen : (ascii "Error - No such state code ").length = 27 := by decide
  rw [noStateMsg, List.take_of_length_le (by simp [hlen]), cstr_bytes_of_noNull]
  simp only [List.mem_append, List.mem_cons, List.not_mem_nil, or_false, not_or]
  exact ⟨by decide, (tolower_ne_zero h1).symm, (tolower_ne_zero h2).symm⟩

end StateProtocol.Data
