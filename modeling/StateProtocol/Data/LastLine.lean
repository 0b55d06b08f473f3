import StateProtocol.Data.Records

/-!
# Databases whose last line is not terminated

Such a line is a record of its own kind: it may be one byte longer, as there is
no newline to read, and its last field comes out of `find_data` without one.
`Database.findIn_file` is the scan of a file that may end in one: the records
come first, and the line at the end is looked at when none of them matches.
-/

namespace StateProtocol.Data

open StateProtocol.Clib

structure LastLine where
  code : Field
  name : Field
  capital : Field
  date : Field
  motto : Field
  short : (lineOf code name capital date motto).length ≤ maxLineLen - 1

namespace LastLine

variable {i : Nat}

def line (l : LastLine) : Bytes := lineOf l.code l.name l.capital l.date l.motto

/-- The field with index `i`, up to 4. -/
def field (l : LastLine) : (i : Nat) → Field
  | 0 => l.code
  | 1 => l.name
  | 2 => l.capital
  | 3 => l.date
  | _ => l.motto

theorem line_ne_nil (l : LastLine) : l.line ≠ [] :=
  List.append_ne_nil_of_left_ne_nil l.code.nonempty _

theorem line_noNewline (l : LastLine) : newline ∉ l.line := by
  unfold line lineOf
  simp [l.code.noNewline, l.name.noNewline, l.capital.noNewline, l.date.noNewline,
    l.motto.noNewline, newline_ne_pipe]

theorem line_noNull (l : LastLine) : 0 ∉ l.line := by
  unfold line lineOf
  simp [l.code.noNull, l.name.noNull, l.capital.noNull, l.date.noNull, l.motto.noNull,
    null_ne_pipe]

/-- The first token is the code. -/
theorem strtok_code (l : LastLine) :
    strtok pipe l.line = some (l.code.text, l.name.text ++ pipe :: (l.capital.text ++ pipe ::
      (l.date.text ++ pipe :: l.motto.text))) :=
  strtok_field _ l.code.nonempty l.code.noPipe

/-- The tokens from it on are the fields, the last one among them. -/
theorem nthToken_field (l : LastLine) (h4 : i ≤ 4) :
    nthToken i (some l.code.text) (l.name.text ++ pipe :: (l.capital.text ++ pipe ::
      (l.date.text ++ pipe :: l.motto.text))) = some (l.field i).text := by
  rw [nthToken_tokenOf _ _ _ _ l.motto.nonempty l.motto.noPipe h4]
  match i, h4 with
  | 0, _ => rfl
  | 1, _ => rfl
  | 2, _ => rfl
  | 3, _ => rfl
  | 4, _ => rfl

theorem field_length_le (l : LastLine) (i : Nat) : (l.field i).text.length ≤ maxLineLen - 1 := by
  have hshort := l.short
  unfold lineOf at hshort
  simp only [List.length_append, List.length_cons] at hshort
  unfold field
  split <;> omega

/-- The string that `find_data` returns for the line. -/
def data (l : LastLine) (i : Nat) : CString := ⟨(l.field i).text, (l.field i).noNull⟩

/-- The scan of the line alone. -/
theorem scanLines_line (l : LastLine) (h4 : i ≤ 4) (state : Bytes) :
    scanLines state i [l.line] = .ok (if l.code.text = state then some (l.data i) else none) := by
  rw [scanLines, cstr_bytes_of_noNull l.line_noNull, l.strtok_code]
  dsimp only
  by_cases hcode : l.code.text = state
  · rw [if_pos hcode, if_pos hcode, nthToken_field l h4]
    dsimp only
    rw [List.take_of_length_le (l.field_length_le i)]
    refine congrArg (fun s => Except.ok (some s)) (CString.ext ?_)
    exact cstr_bytes_of_noNull (l.field i).noNull
  · rw [if_neg hcode, if_neg hcode]
    rfl

end LastLine

/-- Records on lines of their own, and perhaps a last line without a newline. -/
structure Database where
  records : List Record
  last : Option LastLine

namespace Database

variable {db : Database} {char1 char2 : UInt8} {i : Nat}

def file (db : Database) : Bytes := Record.file db.records ++ db.last.elim [] LastLine.line

/-- The last line, when it has the code that the two characters stand for. -/
def lastWith (db : Database) (char1 char2 : UInt8) : Option LastLine :=
  db.last.filter fun l => l.code.text = [toupper char1, toupper char2]

/-- The field with index `i` of the first line with the code. -/
def field (db : Database) (char1 char2 : UInt8) (i : Nat) : Option Field :=
  (Record.lookup db.records char1 char2).elim
    ((db.lastWith char1 char2).map fun l => l.field i) fun r => some (r.field i)

theorem findIn_file (db : Database) (h1 : char1 ≠ 0) (h2 : char2 ≠ 0) (h4 : i ≤ 4) :
    findIn db.file char1 char2 i = .ok ((Record.lookup db.records char1 char2).elim
      ((db.lastWith char1 char2).map fun l => l.data i) fun r => some (r.data i)) := by
  have hlast : scanLines [toupper char1, toupper char2] i
      (fgetsAll maxLineLen (db.last.elim [] LastLine.line))
        = .ok ((db.lastWith char1 char2).map fun l => l.data i) := by
    cases hl : db.last with
    | none =>
      rw [lastWith, hl]
      rfl
    | some l =>
      rw [lastWith, hl, Option.elim_some, fgetsAll_last l.line_ne_nil l.line_noNewline l.short,
        l.scanLines_line h4]
      by_cases hcode : l.code.text = [toupper char1, toupper char2]
      · rw [if_pos hcode, Option.filter_some_pos (by simpa using hcode)]
        rfl
      · rw [if_neg hcode, Option.filter_some_neg (by simpa using hcode)]
        rfl
  rw [findIn, file, Record.fgetsAll_append, stateCode_eq h1 h2, Record.scanLines_append _ h4, hlast,
    Record.lookup]
  cases db.records.find? fun r => r.code.text = [toupper char1, toupper char2] <;> rfl

/-- A field that is there is found; it brings a newline along when it is the last
of a record. -/
theorem findIn_field (db : Database) (h1 : char1 ≠ 0) (h2 : char2 ≠ 0) (h4 : i ≤ 4) {field : Field}
    (hfield : db.field char1 char2 i = some field) :
    ∃ data, findIn db.file char1 char2 i = .ok (some data) ∧
      withoutNewline data.bytes = field.text ∧
      (data.bytes.getLast? = some newline ↔
        Record.lookup db.records char1 char2 ≠ none ∧ i = 4) := by
  rw [db.findIn_file h1 h2 h4]
  unfold Database.field at hfield
  cases hlookup : Record.lookup db.records char1 char2 with
  | some r =>
    rw [hlookup] at hfield
    obtain rfl : r.field i = field := Option.some.inj hfield
    refine ⟨r.data i, rfl, r.withoutNewline_token i, (r.token_newline i).trans ?_⟩
    simp
  | none =>
    rw [hlookup] at hfield
    obtain ⟨l, hl, rfl⟩ := Option.map_eq_some_iff.mp hfield
    have hlast : (l.field i).text.getLast? ≠ some newline :=
      fun h => (l.field i).noNewline (List.mem_of_getLast? h)
    refine ⟨l.data i, ?_, if_neg hlast, iff_of_false hlast fun h => h.1 rfl⟩
    rw [Option.elim_none, hl]
    rfl

end Database

/-- The record of New Hampshire at the end of a file that ends with its motto. -/
def newHampshireLast : LastLine :=
  { newHampshire with short := by decide }

/-- A system with that database. -/
def Host.cut : Host :=
  { Host.small with statedb := some (Database.file ⟨[], some newHampshireLast⟩) }

end StateProtocol.Data
