import StateProtocol.Data.Fields

/-!
# Well-formed databases

A record is five fields on a line, `code|name|capital|date|motto`, each of them
not empty and free of the delimiter, the newline and the null byte; the line
fits into the buffer of `find_data`. Both conditions are fields of the
structures, so a `Record` is well-formed by construction.

On a file of such records the scan is a table lookup (`findIn_records`): the
first record with the upper-cased code, and of it the field with the index that
is asked for, the last one with its newline. So such a file is tidy
(`records_tidy`), and it serves the executor of version 2 as a `Lookup`.
-/

namespace StateProtocol.Data

open StateProtocol.Clib

theorem newline_ne_pipe : newline ≠ pipe := by decide

theorem null_ne_pipe : (0 : UInt8) ≠ pipe := by decide

theorem null_ne_newline : (0 : UInt8) ≠ newline := by decide

/-- A piece of text that can stand between two delimiters. -/
structure Field where
  text : Bytes
  nonempty : text ≠ []
  noPipe : pipe ∉ text
  noNewline : newline ∉ text
  noNull : 0 ∉ text

/-- The record on a line, without its newline. -/
def lineOf (code name capital date motto : Field) : Bytes :=
  code.text ++ pipe :: (name.text ++ pipe :: (capital.text ++ pipe :: (date.text ++ pipe ::
    motto.text)))

structure Record where
  code : Field
  name : Field
  capital : Field
  date : Field
  motto : Field
  short : (lineOf code name capital date motto).length + 1 ≤ maxLineLen - 1

/-- The tokens of a line whose last one is `last`. -/
def tokenOf (code name capital date : Field) (last : Bytes) : (i : Nat) → Bytes
  | 0 => code.text
  | 1 => name.text
  | 2 => capital.text
  | 3 => date.text
  | _ => last

/-- From the first token on, `strtok` hands them out one by one. -/
theorem nthToken_tokenOf (code name capital date : Field) {last : Bytes} {i : Nat}
    (hne : last ≠ []) (hpipe : pipe ∉ last) (h4 : i ≤ 4) :
    nthToken i (some code.text) (name.text ++ pipe :: (capital.text ++ pipe ::
      (date.text ++ pipe :: last))) = some (tokenOf code name capital date last i) := by
  have hlast : strtok pipe last = some (last, []) := strtok_last hne hpipe
  have hname := fun rest => strtok_field rest name.nonempty name.noPipe
  have hcapital := fun rest => strtok_field rest capital.nonempty capital.noPipe
  have hdate := fun rest => strtok_field rest date.nonempty date.noPipe
  match i, h4 with
  | 0, _ => rfl
  | 1, _ => simp only [nthToken, hname, tokenOf]
  | 2, _ => simp only [nthToken, hname, hcapital, tokenOf]
  | 3, _ => simp only [nthToken, hname, hcapital, hdate, tokenOf]
  | 4, _ => simp only [nthToken, hname, hcapital, hdate, hlast, tokenOf]

namespace Record

def line (r : Record) : Bytes := lineOf r.code r.name r.capital r.date r.motto

/-- The field with index `i`, up to 4. -/
def field (r : Record) : (i : Nat) → Field
  | 0 => r.code
  | 1 => r.name
  | 2 => r.capital
  | 3 => r.date
  | _ => r.motto

/-- What `strtok` makes of the field: behind the last one is the newline. -/
def token (r : Record) (i : Nat) : Bytes :=
  if i = 4 then (r.field i).text ++ [newline] else (r.field i).text

/-- The contents of a database. -/
def file (rs : List Record) : Bytes := rs.flatMap fun r => r.line ++ [newline]

/-- The first record with the code that the two characters stand for. -/
def lookup (rs : List Record) (char1 char2 : UInt8) : Option Record :=
  rs.find? fun r => r.code.text = [toupper char1, toupper char2]

variable {r : Record} {i : Nat}

theorem line_noNewline (r : Record) : newline ∉ r.line := by
  unfold line lineOf
  simp [r.code.noNewline, r.name.noNewline, r.capital.noNewline, r.date.noNewline,
    r.motto.noNewline, newline_ne_pipe]

theorem line_noNull (r : Record) : 0 ∉ r.line ++ [newline] := by
  unfold line lineOf
  simp [r.code.noNull, r.name.noNull, r.capital.noNull, r.date.noNull, r.motto.noNull,
    null_ne_pipe, null_ne_newline]

/-! ## The tokens of a line -/

/-- The first token is the code. -/
theorem strtok_code (r : Record) :
    strtok pipe (r.line ++ [newline]) = some (r.code.text,
      r.name.text ++ pipe :: (r.capital.text ++ pipe :: (r.date.text ++ pipe ::
        (r.motto.text ++ [newline])))) := by
  unfold line lineOf
  simp only [List.append_assoc, List.cons_append]
  exact strtok_field _ r.code.nonempty r.code.noPipe

/-- The tokens from it on are the fields. -/
theorem nthToken_field (r : Record) (h4 : i ≤ 4) :
    nthToken i (some r.code.text) (r.name.text ++ pipe :: (r.capital.text ++ pipe ::
      (r.date.text ++ pipe :: (r.motto.text ++ [newline])))) = some (r.token i) := by
  have hpipe : pipe ∉ r.motto.text ++ [newline] := by
    simp [r.motto.noPipe, newline_ne_pipe.symm]
  rw [nthToken_tokenOf _ _ _ _ (List.append_ne_nil_of_left_ne_nil r.motto.nonempty _) hpipe h4]
  match i, h4 with
  | 0, _ => rfl
  | 1, _ => rfl
  | 2, _ => rfl
  | 3, _ => rfl
  | 4, _ => rfl

theorem field_length_le (r : Record) (i : Nat) : (r.field i).text.length + 1 ≤ maxLineLen - 1 := by
  have hshort := r.short
  unfold lineOf at hshort
  simp only [List.length_append, List.length_cons] at hshort
  unfold field
  split <;> omega

theorem token_length_le (r : Record) (i : Nat) : (r.token i).length ≤ maxLineLen - 1 := by
  have hfield := r.field_length_le i
  unfold token
  split
  · simpa using hfield
  · omega

theorem token_noNull (r : Record) (i : Nat) : 0 ∉ r.token i := by
  unfold token
  split
  · simp [(r.field i).noNull, null_ne_newline]
  · exact (r.field i).noNull

theorem token_of_ne (r : Record) (h : i ≠ 4) : r.token i = (r.field i).text := if_neg h

/-- The token without its newline is the field. -/
theorem withoutNewline_token (r : Record) (i : Nat) :
    withoutNewline (r.token i) = (r.field i).text := by
  unfold withoutNewline token
  split
  next => simp
  next =>
    have hlast : (r.field i).text.getLast? ≠ some newline :=
      fun h => (r.field i).noNewline (List.mem_of_getLast? h)
    rw [if_neg hlast]

/-- Only the last token ends in a newline. -/
theorem token_newline (r : Record) (i : Nat) :
    (r.token i).getLast? = some newline ↔ i = 4 := by
  unfold token
  split
  next h4 => simp [h4]
  next h4 => exact iff_of_false (fun h => (r.field i).noNewline (List.mem_of_getLast? h)) h4

/-! ## The scan -/

/-- The string that `find_data` returns for the record. -/
def data (r : Record) (i : Nat) : CString := ⟨r.token i, r.token_noNull i⟩

/-- The windows of `fgets` are the lines, also when more follows the records. -/
theorem fgetsAll_append (rs : List Record) (more : Bytes) :
    fgetsAll maxLineLen (file rs ++ more)
      = (rs.map fun r => r.line ++ [newline]) ++ fgetsAll maxLineLen more := by
  induction rs with
  | nil => rfl
  | cons r rs ih =>
    have hfile : file (r :: rs) ++ more = r.line ++ newline :: (file rs ++ more) := by
      simp [file]
    have hsize : r.line.length + 1 < maxLineLen :=
      Nat.lt_of_le_of_lt r.short (show 159 < 160 by omega)
    rw [hfile, fgetsAll_line (file rs ++ more) r.line_noNewline hsize, ih, List.map_cons,
      List.cons_append]

theorem fgetsAll_file (rs : List Record) :
    fgetsAll maxLineLen (file rs) = rs.map fun r => r.line ++ [newline] := by
  have h := fgetsAll_append rs []
  rwa [fgetsAll_nil, List.append_nil, List.append_nil] at h

/-- The loop stops at the first record with the code, or goes on with the lines
behind the records. -/
theorem scanLines_append (state : Bytes) (h4 : i ≤ 4) (rs : List Record) (lines : List Bytes) :
    scanLines state i ((rs.map fun r => r.line ++ [newline]) ++ lines)
      = (rs.find? fun r => r.code.text = state).elim (scanLines state i lines)
        fun r => .ok (some (r.data i)) := by
  induction rs with
  | nil => rfl
  | cons r rs ih =>
    rw [List.map_cons, List.cons_append, scanLines, cstr_bytes_of_noNull r.line_noNull,
      r.strtok_code]
    dsimp only
    by_cases hcode : r.code.text = state
    · rw [if_pos hcode, nthToken_field r h4, List.find?_cons_of_pos (by simpa using hcode)]
      dsimp only
      rw [List.take_of_length_le (r.token_length_le i)]
      refine congrArg (fun s => Except.ok (some s)) (CString.ext ?_)
      exact cstr_bytes_of_noNull (r.token_noNull i)
    · rw [if_neg hcode, List.find?_cons_of_neg (by simpa using hcode)]
      exact ih

theorem scanLines_records {state : Bytes} (h4 : i ≤ 4) (rs : List Record) :
    scanLines state i (rs.map fun r => r.line ++ [newline])
      = .ok ((rs.find? fun r => r.code.text = state).map fun r => r.data i) := by
  have h := scanLines_append state h4 rs []
  rw [List.append_nil] at h
  rw [h]
  cases rs.find? fun r => r.code.text = state <;> rfl

/-- **The scan of a well-formed database** is a lookup. -/
theorem findIn_records (rs : List Record) {char1 char2 : UInt8} (hc1 : char1 ≠ 0)
    (hc2 : char2 ≠ 0) (h4 : i ≤ 4) :
    findIn (file rs) char1 char2 i = .ok ((lookup rs char1 char2).map fun r => r.data i) := by
  rw [findIn, fgetsAll_file, stateCode_eq hc1 hc2, scanLines_records h4]
  rfl

/-- A well-formed database is tidy. -/
theorem records_tidy (rs : List Record) {char1 char2 : UInt8} (hc1 : char1 ≠ 0)
    (hc2 : char2 ≠ 0) (h4 : i ≤ 4) : Tidy (file rs) char1 char2 i := by
  rw [Tidy, findIn_records rs hc1 hc2 h4]
  cases lookup rs char1 char2 with
  | none => trivial
  | some r => exact r.token_newline i

/-- The field that is served is the field of the record. -/
theorem textField_records (rs : List Record) {char1 char2 : UInt8} (hc1 : char1 ≠ 0)
    (hc2 : char2 ≠ 0) (h4 : i ≤ 4) :
    textField (file rs) char1 char2 i
      = (lookup rs char1 char2).map fun r => (r.field i).text := by
  rw [textField, findIn_records rs hc1 hc2 h4]
  cases lookup rs char1 char2 with
  | none => rfl
  | some r => exact congrArg some (r.withoutNewline_token i)

end Record

/-! ## Examples -/

/-- Two records of the database that comes with the servers, in their order there. -/
def delaware : Record where
  code := ⟨ascii "DE", by decide, by decide, by decide, by decide⟩
  name := ⟨ascii "Delaware", by decide, by decide, by decide, by decide⟩
  capital := ⟨ascii "Dover", by decide, by decide, by decide, by decide⟩
  date := ⟨ascii "December 7, 1787", by decide, by decide, by decide, by decide⟩
  motto := ⟨ascii "Liberty and independence", by decide, by decide, by decide, by decide⟩
  short := by decide

def newHampshire : Record where
  code := ⟨ascii "NH", by decide, by decide, by decide, by decide⟩
  name := ⟨ascii "New Hampshire", by decide, by decide, by decide, by decide⟩
  capital := ⟨ascii "Concord", by decide, by decide, by decide, by decide⟩
  date := ⟨ascii "June 21, 1788", by decide, by decide, by decide, by decide⟩
  motto := ⟨ascii "Live free or die", by decide, by decide, by decide, by decide⟩
  short := by decide

/-- A small system with the second record and no flags. -/
def Host.small : Host := ⟨some (Record.file [newHampshire]), fun _ => none, 16, Nat.le_refl 16⟩

/-- The same with both records. -/
def Host.pair : Host :=
  { Host.small with statedb := some (Record.file [delaware, newHampshire]) }

end StateProtocol.Data
