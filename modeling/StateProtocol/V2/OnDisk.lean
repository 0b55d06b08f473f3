import StateProtocol.Data.Records
import StateProtocol.V2.Execute

/-!
# The executor on the files

On a well-formed database the data library serves a table: the first record with
the code, its fields as `find_data` returns them, and the flag files. A text
lookup costs a descriptor, and there are enough of them for one query, as long
as the process has just been started. So what is known of `execute_query`
against a table holds of it against the files (`executeQuery_onDisk`).
-/

namespace StateProtocol.V2

open StateProtocol.Clib StateProtocol.Data

/-- What `find_data` and `load_gif` have under each key: the token of the first record,
which for the motto has the newline of the line behind it, and the file of the flag. -/
def tableOf (rs : List Record) (flags : Bytes → Option Bytes) : Lookup where
  text char1 char2 index := (Record.lookup rs char1 char2).map fun r => r.data index
  gif char1 char2 := flags (constructGifFilename char1 char2)

/-- What a call leaves behind: `find_data` does not close its file. -/
def leave : Call → Proc → Proc
  | .text _, p => { p with fds := p.fds + 1 }
  | .gif, p => p

section

variable {host : Host} {rs : List Record} {char1 char2 : UInt8}

theorem onDisk_serves (hdb : host.statedb = some (Record.file rs)) (h1 : char1 ≠ 0)
    (h2 : char2 ≠ 0) :
    Serves (onDisk host) (tableOf rs host.flags) char1 char2 Call.InRange leave
      fun n p => p.fds + n ≤ host.maxFds where
  text index hindex hready := by
    refine (findData_run hdb (by omega)).trans ?_
    rw [Record.findIn_records rs h1 h2 hindex]
    rfl
  gif _ hready := loadGif_run (by omega)
  still := by
    intro n p call _ hready
    cases call with
    | text index => exact show p.fds + 1 + n ≤ host.maxFds by omega
    | gif => exact show p.fds + n ≤ host.maxFds by omega

/-- The parser lets no other index through. -/
theorem Accepted.calls_inRange {req : Request} (h : Accepted req) {db : Lookup} :
    ∀ call ∈ callsFor db req.char1 req.char2 req.executed, call.InRange := by
  intro call hcall
  obtain ⟨q, hq, rfl⟩ := callsFor_subset hcall
  unfold callOf
  split
  next => trivial
  next h5 => exact textIndex_le (h.range q (List.mem_of_mem_take hq)) h5

/-- **The executor on the files** of a process that has just been started. -/
theorem executeQuery_onDisk {req : Request} (hdb : host.statedb = some (Record.file rs))
    (h : Accepted req) :
    ∃ p, executeQuery (onDisk host) (some req) Proc.fresh
      = .ok (replyTo (tableOf rs host.flags) (some req)) p := by
  have hroom := host.room
  have hcount := h.count_le
  have hready : Proc.fresh.fds + req.numQueries.toNat ≤ host.maxFds :=
    show 4 + req.numQueries.toNat ≤ host.maxFds by omega
  exact ⟨_, executeQuery_serves (onDisk_serves hdb h.char1 h.char2) h hready h.calls_inRange⟩

/-- With a record for the state code, the text opcodes are answered with its
fields, and only a flag can be missing. -/
theorem collect_record {r : Record} (hr : Record.lookup rs char1 char2 = some r)
    (flags : Bytes → Option Bytes) {ops : List UInt8} {a : Answer}
    (h : collect (tableOf rs flags) char1 char2 ops = some a) :
    a.texts = (textOps ops).map fun q => r.data q.toNat := by
  have htexts := collect_texts h
  have htable : ∀ q : UInt8, (tableOf rs flags).text char1 char2 q.toNat
      = some (r.data q.toNat) := by
    intro q
    show (Record.lookup rs char1 char2).map _ = _
    rw [hr]
    rfl
  rw [List.map_congr_left fun q _ => htable q] at htexts
  refine List.map_injective_iff.mpr (Option.some_injective _) ?_
  rw [htexts, List.map_map]
  rfl

theorem collect_isSome_record {r : Record} (hr : Record.lookup rs char1 char2 = some r)
    (flags : Bytes → Option Bytes) (ops : List UInt8) :
    (collect (tableOf rs flags) char1 char2 ops).isSome ↔
      (5 ∈ ops → (flags (constructGifFilename char1 char2)).isSome) := by
  have hfound : ∀ q, Found (tableOf rs flags) char1 char2 q
      = if q = 5 then (flags (constructGifFilename char1 char2)).isSome else true := by
    intro q
    unfold Found tableOf
    dsimp only
    rw [hr]
    rfl
  rw [collect_isSome]
  constructor
  · intro h h5
    have hflag := h 5 h5
    rwa [hfound, if_pos rfl] at hflag
  · intro h q hq
    rw [hfound]
    split
    next h5 => exact h (h5 ▸ hq)
    next => rfl

end

end StateProtocol.V2
