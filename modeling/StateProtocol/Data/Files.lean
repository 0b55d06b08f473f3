import StateProtocol.Clib.Rounds
import StateProtocol.Clib.Stdio
import StateProtocol.Data.Library

/-!
# `find_data` and `load_gif` on the files

`Host` is the file system as the servers see it: `statedb.txt`, the flags by
file name, and the limit on open descriptors. Opening a file takes a descriptor
of the process (`fopen`), closing gives it back (`fclose`).

`findIn` is the scan of `find_data` over the contents of the database: `fgets`
windows, the first `|` token against the upper-cased state code, then `index`
more tokens. A line without a token, or with too few of them, hands a null
pointer to `strcmp` or `strncpy`: a fault. `findData_run` says what a call does
to the process, and that none of its returns gives the descriptor back.
-/

namespace StateProtocol.Data

open StateProtocol.Clib

/-- Longest line of the database, with its terminating null. -/
def maxLineLen : Nat := 160

/-- The delimiter of the database. -/
abbrev pipe : UInt8 := 124

structure Host where
  /-- `statedb.txt` -/
  statedb : Option Bytes
  /-- the files under their names in `flags/` -/
  flags : Bytes → Option Bytes
  /-- the limit on open descriptors -/
  maxFds : Nat
  /-- the least limit a system may have -/
  room : 16 ≤ maxFds

/-- A server that has just been started can open a file. -/
theorem fresh_fds (host : Host) : Proc.fresh.fds < host.maxFds :=
  Nat.lt_of_lt_of_le (show 4 < 16 by omega) host.room

/-! ## Opening and closing -/

/-- `fopen` of a file with the given contents, if it exists. -/
def fopen (host : Host) (file : Option Bytes) : C Proc (Option Bytes) := fun p =>
  if p.fds < host.maxFds then
    match file with
    | some data => .ok (some data) { p with fds := p.fds + 1 }
    | none => .ok none p
  else .ok none p

def fclose : C Proc Unit := fun p => .ok () { p with fds := p.fds - 1 }

theorem fopen_run {host : Host} {data : Bytes} {p : Proc} (h : p.fds < host.maxFds) :
    fopen host (some data) p = .ok (some data) { p with fds := p.fds + 1 } := if_pos h

theorem fopen_missing (host : Host) (p : Proc) : fopen host none p = .ok none p := by
  unfold fopen
  split <;> rfl

/-- A file that was opened is the one there is, and has a descriptor. -/
theorem fopen_eq_some {host : Host} {file : Option Bytes} {data : Bytes} {p q : Proc}
    (h : fopen host file p = .ok (some data) q) : q = { p with fds := p.fds + 1 } := by
  unfold fopen at h
  split at h
  · split at h
    · cases h
      rfl
    · cases h
  · cases h

theorem fopen_eq_none {host : Host} {file : Option Bytes} {p q : Proc}
    (h : fopen host file p = .ok none q) : q = p := by
  unfold fopen at h
  split at h
  · split at h
    · cases h
    · cases h
      rfl
  · cases h
    rfl

/-! ## `find_data` -/

/-- `sprintf(state, "%c%c", toupper(char1), toupper(char2))` -/
def stateCode (char1 char2 : UInt8) : Bytes := (cstr [toupper char1, toupper char2]).bytes

theorem stateCode_eq {char1 char2 : UInt8} (h1 : char1 ≠ 0) (h2 : char2 ≠ 0) :
    stateCode char1 char2 = [toupper char1, toupper char2] := by
  refine cstr_bytes_of_noNull ?_
  simp only [List.mem_cons, List.not_mem_nil, or_false, not_or]
  exact ⟨(toupper_ne_zero h1).symm, (toupper_ne_zero h2).symm⟩

/-- `while (count < index) { token = strtok(NULL, "|"); count++; }` -/
def nthToken : (left : Nat) → (token : Option Bytes) → (saved : Bytes) → Option Bytes
  | 0, token, _ => token
  | left + 1, _, saved =>
    match strtok pipe saved with
    | some (token, rest) => nthToken left (some token) rest
    | none => nthToken left none []

/-- The loop over the lines of the file, each as `fgets` left it in `line`. -/
def scanLines (state : Bytes) (index : Nat) : List Bytes → Except Halt (Option CString)
  | [] => .ok none
  | line :: lines =>
    match strtok pipe (cstr line).bytes with
    -- a line of delimiters only: `strcmp` gets the null pointer
    | none => .error .fault
    | some (token, saved) =>
      if token = state then
        match nthToken index (some token) saved with
        -- too few tokens: `strncpy` gets it
        | none => .error .fault
        | some t => .ok (some (cstr (t.take (maxLineLen - 1))))
      else scanLines state index lines

/-- What `find_data` makes of the contents of the database. -/
def findIn (db : Bytes) (char1 char2 : UInt8) (index : Nat) : Except Halt (Option CString) :=
  scanLines (stateCode char1 char2) index (fgetsAll maxLineLen db)

/-- `find_data`. Neither return closes the file. -/
def findData (host : Host) (char1 char2 : UInt8) (index : Nat) : C Proc (Option CString) := do
  match ← fopen host host.statedb with
  | none => throw (.exit 1)
  | some db =>
    -- found or not, there is no `fclose` on the way out
    match findIn db char1 char2 index with
    | .ok data => return data
    | .error halt => throw halt

/-! ## `load_gif` -/

/-- `construct_gif_filename`: `"flags/%c%c.gif"` in a buffer of 14 bytes. -/
def constructGifFilename (char1 char2 : UInt8) : Bytes :=
  (cstr ((ascii "flags/" ++ [tolower char1, tolower char2] ++ ascii ".gif").take 13)).bytes

/-- The `fread` loop: each call asks for `fileSize` bytes, and the first empty
one ends it. -/
def freadLoop (fileSize : Nat) : (calls : Nat) → (file data : Bytes) → Bytes
  | 0, _, data => data
  | calls + 1, file, data =>
    if (file.take fileSize).length = 0 then data
    else freadLoop fileSize calls (file.drop fileSize) (data ++ file.take fileSize)

/-- `load_gif`; the length it reports is that of the returned bytes. -/
def loadGif (host : Host) (char1 char2 : UInt8) : C Proc (Option Bytes) := do
  match ← fopen host (host.flags (constructGifFilename char1 char2)) with
  | none => return none
  | some file =>
    let fileData := freadLoop file.length (file.length + 1) file []
    fclose
    return some fileData

/-- The loop reads the whole file. -/
theorem freadLoop_eq (file : Bytes) : freadLoop file.length (file.length + 1) file [] = file := by
  cases file with
  | nil => rfl
  | cons b bs =>
    -- the second call finds the end of the file
    rw [freadLoop, List.take_length, if_neg (by simp), List.drop_length, List.nil_append,
      List.length_cons, freadLoop, List.take_nil, if_pos List.length_nil]

/-! ## What a call does to the process -/

variable {host : Host} {p : Proc} {char1 char2 : UInt8}

/-- With a descriptor to spare, `find_data` is the scan and costs one. -/
theorem findData_run {db : Bytes} {index : Nat} (hdb : host.statedb = some db)
    (hfds : p.fds < host.maxFds) :
    findData host char1 char2 index p =
      match findIn db char1 char2 index with
      | .ok data => .ok data { p with fds := p.fds + 1 }
      | .error halt => .error halt { p with fds := p.fds + 1 } := by
  rw [findData, hdb, bind_of_ok (fopen_run hfds)]
  dsimp only
  cases findIn db char1 char2 index <;> rfl

/-- Without a database `find_data` ends the process. -/
theorem findData_missing {index : Nat} (hdb : host.statedb = none) :
    findData host char1 char2 index p = .error (.exit 1) p := by
  rw [findData, hdb, bind_of_ok (fopen_missing host p)]
  rfl

/-- Without a descriptor to spare it does so too. -/
theorem findData_exhausted {index : Nat} (hfds : ¬p.fds < host.maxFds) :
    findData host char1 char2 index p = .error (.exit 1) p := by
  have hopen : fopen host host.statedb p = .ok none p := if_neg hfds
  rw [findData, bind_of_ok hopen]
  rfl

/-- With a descriptor to spare, `load_gif` reads the flag and gives back what
it opened. -/
theorem loadGif_run (hfds : p.fds < host.maxFds) :
    loadGif host char1 char2 p = .ok (host.flags (constructGifFilename char1 char2)) p := by
  rw [loadGif]
  cases host.flags (constructGifFilename char1 char2) with
  | none => exact bind_of_ok (fopen_missing host p)
  | some file =>
    rw [bind_of_ok (fopen_run hfds)]
    dsimp only
    rw [freadLoop_eq, bind_run, fclose]
    simp

/-- Without a descriptor to spare it finds no flag. -/
theorem loadGif_exhausted (hfds : ¬p.fds < host.maxFds) :
    loadGif host char1 char2 p = .ok none p := by
  have hopen : fopen host (host.flags (constructGifFilename char1 char2)) p = .ok none p :=
    if_neg hfds
  rw [loadGif, bind_of_ok hopen]
  rfl

/-- The three ways a call of `find_data` can go: the file cannot be opened, the
scan does not return, or it does. -/
theorem findData_cases (host : Host) (char1 char2 : UInt8) (index : Nat) (p : Proc) :
    findData host char1 char2 index p = .error (.exit 1) p ∨
    (∃ db halt, host.statedb = some db ∧ findIn db char1 char2 index = .error halt ∧
      findData host char1 char2 index p = .error halt { p with fds := p.fds + 1 }) ∨
    ∃ db data, p.fds < host.maxFds ∧ host.statedb = some db ∧
      findIn db char1 char2 index = .ok data ∧
      findData host char1 char2 index p = .ok data { p with fds := p.fds + 1 } := by
  by_cases hfds : p.fds < host.maxFds
  · cases hdb : host.statedb with
    | none => exact Or.inl (findData_missing hdb)
    | some db =>
      have hrun : findData host char1 char2 index p = _ := findData_run hdb hfds
      cases hfound : findIn db char1 char2 index with
      | error halt =>
        rw [hfound] at hrun
        exact Or.inr (Or.inl ⟨db, halt, rfl, hfound, hrun⟩)
      | ok data =>
        rw [hfound] at hrun
        exact Or.inr (Or.inr ⟨db, data, hfds, rfl, hfound, hrun⟩)
  · exact Or.inl (findData_exhausted hfds)

/-- What `find_data` returns was found in the database. -/
theorem findData_returns {index : Nat} {r : Option CString} {q : Proc}
    (h : findData host char1 char2 index p = .ok r q) :
    ∃ db, host.statedb = some db ∧ findIn db char1 char2 index = .ok r := by
  rcases findData_cases host char1 char2 index p with hexit | ⟨db, halt, -, -, hhalt⟩ |
    ⟨db, data, -, hdb, hfound, hok⟩
  · rw [hexit] at h
    cases h
  · rw [hhalt] at h
    cases h
  · rw [hok] at h
    cases h
    exact ⟨db, hdb, hfound⟩

/-- What `load_gif` returns is the flag. -/
theorem loadGif_returns {data : Bytes} {q : Proc}
    (h : loadGif host char1 char2 p = .ok (some data) q) :
    host.flags (constructGifFilename char1 char2) = some data := by
  by_cases hfds : p.fds < host.maxFds
  · rw [loadGif_run hfds] at h
    exact (EStateM.Result.ok.inj h).1
  · rw [loadGif_exhausted hfds] at h
    cases h

/-- `save_gif` on a disk with room: the first `fwrite` takes the whole buffer,
which ends its loop. -/
def saveGif (host : Host) : C Proc Unit := do
  match ← fopen host (some []) with
  | none => throw (.exit 1)
  | some _ => fclose

/-- The data library of the servers. -/
def onDisk (host : Host) : DataUtils Proc where
  findData := findData host
  loadGif := loadGif host
  saveGif _ _ _ := saveGif host

/-! ## What the scan can return -/

/-- Every token the scan hands out lies in the line it came from. -/
theorem nthToken_spec : ∀ (left : Nat) (token : Option Bytes) (saved t : Bytes) (n : Nat),
    nthToken left token saved = some t → 0 ∉ saved → saved.length ≤ n →
    (∀ u, token = some u → u ≠ [] ∧ 0 ∉ u ∧ u.length ≤ n) → t ≠ [] ∧ 0 ∉ t ∧ t.length ≤ n
  | 0, _, _, t, _, h, _, _, htok => htok t h
  | left + 1, _, saved, t, n, h, hnull, hlen, _ => by
    rw [nthToken] at h
    split at h
    next token rest hs =>
      obtain ⟨hne, _, hsub, hrest, hsum⟩ := strtok_spec hs
      refine nthToken_spec left (some token) rest t n h (fun h0 => hnull (hrest h0)) (by omega) ?_
      intro u hu
      cases hu
      exact ⟨hne, fun h0 => hnull (hsub h0), by omega⟩
    next =>
      exact nthToken_spec left none [] t n h (by simp) (by simp) (by simp)

/-- What the scan returns is not empty and shorter than a line. -/
theorem scanLines_spec {state : Bytes} {index : Nat} {data : CString} :
    ∀ {lines : List Bytes}, (∀ line ∈ lines, line.length ≤ maxLineLen - 1) →
      scanLines state index lines = .ok (some data) →
      data.bytes ≠ [] ∧ data.strlen ≤ maxLineLen - 1
  | line :: lines, hlen, h => by
    rw [scanLines] at h
    split at h
    next => simp at h
    next token saved hs =>
      have hline : (cstr line).bytes.length ≤ maxLineLen - 1 :=
        (List.takeWhile_sublist _).length_le.trans (hlen line (List.mem_cons_self ..))
      obtain ⟨hne, _, hsub, hrest, hsum⟩ := strtok_spec hs
      split at h
      · split at h
        next => simp at h
        next t ht =>
          obtain ⟨htne, htnull, htlen⟩ := nthToken_spec index (some token) saved t
            (maxLineLen - 1) ht (fun h0 => (cstr line).noNull (hrest h0)) (by omega) (by
              intro u hu
              cases hu
              exact ⟨hne, fun h0 => (cstr line).noNull (hsub h0), by omega⟩)
          obtain rfl : cstr (t.take (maxLineLen - 1)) = data := by simpa using h
          rw [CString.strlen, List.take_of_length_le htlen, cstr_bytes_of_noNull htnull]
          exact ⟨htne, htlen⟩
      · exact scanLines_spec (fun l hl => hlen l (List.mem_cons_of_mem _ hl)) h

/-- What `find_data` returns is not empty and fits into its buffer. -/
theorem findIn_spec {db : Bytes} {index : Nat} {data : CString}
    (h : findIn db char1 char2 index = .ok (some data)) :
    data.bytes ≠ [] ∧ data.strlen ≤ maxLineLen - 1 :=
  scanLines_spec (fun _ hl => fgetsAll_length_le hl) h

/-! ## What the calls leave open

`load_gif` and `save_gif` close what they open. `find_data` does not: whatever it
returns, the process has one descriptor less to spare. -/

theorem findData_adds (host : Host) (char1 char2 : UInt8) (index : Nat) :
    Adds Proc.fds 1 (findData host char1 char2 index) := by
  intro p r t h
  unfold findData at h
  obtain ⟨file, q, hopen, hrest⟩ := bind_eq_ok.mp h
  cases file with
  | none => cases hrest
  | some db =>
    have hq := congrArg Proc.fds (fopen_eq_some hopen)
    dsimp only at hrest
    cases hfound : findIn db char1 char2 index with
    | error halt =>
      rw [hfound] at hrest
      cases hrest
    | ok data =>
      rw [hfound] at hrest
      cases hrest
      exact hq.ge

theorem loadGif_adds (host : Host) (char1 char2 : UInt8) :
    Adds Proc.fds 0 (loadGif host char1 char2) := by
  intro p r t h
  unfold loadGif at h
  obtain ⟨file, q, hopen, hrest⟩ := bind_eq_ok.mp h
  cases file with
  | none =>
    cases hrest
    exact (congrArg Proc.fds (fopen_eq_none hopen)).ge
  | some data =>
    have hq := congrArg Proc.fds (fopen_eq_some hopen)
    cases hrest
    exact (Nat.sub_eq_of_eq_add hq).ge

theorem saveGif_adds (host : Host) : Adds Proc.fds 0 (saveGif host) := by
  intro p r t h
  unfold saveGif at h
  obtain ⟨file, q, hopen, hrest⟩ := bind_eq_ok.mp h
  cases file with
  | none => cases hrest
  | some data =>
    have hq := congrArg Proc.fds (fopen_eq_some hopen)
    cases hrest
    exact (Nat.sub_eq_of_eq_add hq).ge

end StateProtocol.Data
