import StateProtocol.Clib.Socket
import StateProtocol.V1.Outcome

/-!
# The version 1 UDP server (`Version1_Server/udpserv.c`)

The chain of the checks is written out once more, as one function that fills in
a response. Flags are not sent, and the last branch asks for a second state
character other than 5, where the opcode was meant: the opcode 5 has been dealt
with. A query about a state code that ends in the byte 5 gets past it with the
status it was cleared to.

`serve_run` says what one datagram comes to, and what it costs.
-/

namespace StateProtocol.V1.Udp

open StateProtocol.Clib StateProtocol.Data

def tooLargeMsg : Bytes := ascii "All state flags are too large for udp - try tcp"

section Server

variable {σ : Type}

/-- `copy`; its parameter `len` is an `int`. -/
def copy (res : Response maxPackLen) (message : Bytes) (len : Nat) : C σ (Response maxPackLen) := do
  let payload ← copyLoop message (intCount len) 0 res.payload
  return { res with payload := payload }

/-- `process_query` -/
def processQuery (lib : DataUtils σ) (query : Request) : C σ (Response maxPackLen) :=
  let res := Response.init maxPackLen
  if query.version ≠ 1 then copy { res with status := 255 } versionMsg versionMsg.length
  else if query.opcode < 1 ∨ query.opcode > 5 then
    let message := opcodeMsg query.opcode
    copy { res with status := 255 } message.bytes message.strlen
  else if query.opcode = 5 then copy { res with status := 254 } tooLargeMsg tooLargeMsg.length
  -- the TCP server tests the opcode here
  else if query.char2 ≠ 5 then do
    match ← lib.findData query.char1 query.char2 query.opcode.toNat with
    | none =>
      let message := noStateMsg query.char1 query.char2
      copy { res with status := 255 } message.bytes message.strlen
    | some data =>
      let data ← cutLast query.opcode data
      copy { res with status := 1 } data.bytes data.strlen
  else return res

/-- One round of the receive loop: the datagram that is sent back, if any. -/
def serve (lib : DataUtils σ) (datagram : Bytes) : C σ (Option Bytes) :=
  let (queryBuff, n) := recvfrom queryLength datagram
  if n < 4 then return none
  -- never, as no more than four bytes are asked for
  else if n > 4 then return none
  else
    let query := castRequest queryBuff
    if query.char1 = 0 ∨ query.char2 = 0 then return none
    else do
      let res ← processQuery lib query
      let sent ← sendto res.encode res.encode.length
      return some sent

end Server

/-! ## What a query comes to -/

/-- The status and the text of the response, or nothing when `find_data` does
not return. -/
def outcome (db : Bytes) (query : Request) : Option (UInt8 × Bytes) :=
  if query.version ≠ 1 then some (255, versionMsg)
  else if query.opcode < 1 ∨ query.opcode > 5 then some (255, (opcodeMsg query.opcode).bytes)
  else if query.opcode = 5 then some (254, tooLargeMsg)
  else if query.char2 ≠ 5 then
    match findIn db query.char1 query.char2 query.opcode.toNat with
    | .error _ => none
    | .ok none => some (255, (noStateMsg query.char1 query.char2).bytes)
    | .ok (some data) => some (1, (cutText query.opcode data).bytes)
  else some (0, [])

/-- Does the query reach `find_data`? -/
def Searches (query : Request) : Prop :=
  query.version = 1 ∧ 1 ≤ query.opcode.toNat ∧ query.opcode.toNat ≤ 4 ∧ query.char2 ≠ 5

instance (query : Request) : Decidable (Searches query) :=
  inferInstanceAs (Decidable (_ ∧ _ ∧ _ ∧ _))

/-- The process after a query: `find_data` has left its file open. -/
def after (query : Request) (p : Proc) : Proc :=
  if Searches query then { p with fds := p.fds + 1 } else p

section Run

variable {host : Host} {db : Bytes} {p : Proc}

theorem copy_run {σ : Type} {status : UInt8} {message : Bytes} (h : message.length ≤ maxPackLen)
    (s : σ) :
    copy { Response.init maxPackLen with status := status } message message.length s
      = .ok (reply maxPackLen status message) s := by
  have hint : intCount message.length = message.length :=
    intCount_of_lt (h.trans_lt (show 500 < 2 ^ 31 by omega))
  have hcopy : copyLoop message message.length 0 (zeroPad maxPackLen []) s = _ :=
    copyLoop_zeroPad (Nat.le_refl _) h s
  rw [List.take_length] at hcopy
  rw [copy, hint]
  exact bind_of_ok hcopy

/-- The end of `process_query` in `p`. -/
def Returns (run : EStateM.Result Halt Proc (Response maxPackLen)) (p : Proc) :
    Option (UInt8 × Bytes) → Prop
  | none => ∃ halt, run = .error halt p
  | some (status, message) => run = .ok (reply maxPackLen status message) p

/-- The tests that a query passes on its way to `find_data`. -/
theorem Searches.tests {query : Request} (h : Searches query) :
    ¬query.version ≠ 1 ∧ ¬(query.opcode < 1 ∨ query.opcode > 5) ∧ query.opcode ≠ 5 ∧
      query.char2 ≠ 5 := by
  obtain ⟨hv, h1, h4, hchar⟩ := h
  refine ⟨not_not.mpr hv, opcode_range.mpr ⟨h1, by omega⟩, ?_, hchar⟩
  intro h5
  rw [h5] at h4
  exact absurd h4 (by decide)

/-- What is left of `process_query` for a query that gets to `find_data`. -/
theorem processQuery_searches {σ : Type} (lib : DataUtils σ) {query : Request}
    (h : Searches query) :
    processQuery lib query = (do
      match ← lib.findData query.char1 query.char2 query.opcode.toNat with
      | none =>
        let message := noStateMsg query.char1 query.char2
        copy { Response.init maxPackLen with status := 255 } message.bytes message.strlen
      | some data =>
        let data ← cutLast query.opcode data
        copy { Response.init maxPackLen with status := 1 } data.bytes data.strlen) := by
  obtain ⟨hv, hrange, h5, hchar⟩ := h.tests
  unfold processQuery
  rw [if_neg hv, if_neg hrange, if_neg h5, if_pos hchar]

/-- And what that comes to. -/
theorem outcome_searches (db : Bytes) {query : Request} (h : Searches query) :
    outcome db query = match findIn db query.char1 query.char2 query.opcode.toNat with
      | .error _ => none
      | .ok none => some (255, (noStateMsg query.char1 query.char2).bytes)
      | .ok (some data) => some (1, (cutText query.opcode data).bytes) := by
  obtain ⟨hv, hrange, h5, hchar⟩ := h.tests
  unfold outcome
  rw [if_neg hv, if_neg hrange, if_neg h5, if_pos hchar]

/-- A query that does not get to `find_data` is answered without the data. -/
theorem processQuery_idle {σ : Type} (lib : DataUtils σ) {query : Request} (h : ¬Searches query) :
    ∃ status message, (∀ db, outcome db query = some (status, message)) ∧
      ∀ s, processQuery lib query s = .ok (reply maxPackLen status message) s := by
  unfold processQuery outcome
  by_cases hv : query.version ≠ 1
  · refine ⟨255, versionMsg, fun _ => if_pos hv, fun s => ?_⟩
    rw [if_pos hv]
    exact copy_run (by decide) s
  · rw [if_neg hv]
    by_cases hrange : query.opcode < 1 ∨ query.opcode > 5
    · refine ⟨255, _, fun _ => (if_neg hv).trans (if_pos hrange), fun s => ?_⟩
      rw [if_pos hrange]
      exact copy_run ((opcodeMsg_length_le _).trans (by decide)) s
    · rw [if_neg hrange]
      by_cases h5 : query.opcode = 5
      · refine ⟨254, tooLargeMsg, fun _ => ?_, fun s => ?_⟩
        · rw [if_neg hv, if_neg hrange, if_pos h5]
        · rw [if_pos h5]
          exact copy_run (by decide) s
      · -- the last test sends the query past `find_data`
        obtain ⟨h1, h4⟩ := opcode_text hrange h5
        have hchar : ¬query.char2 ≠ 5 := fun hchar => h ⟨not_not.mp hv, h1, h4, hchar⟩
        refine ⟨0, [], fun _ => ?_, fun s => ?_⟩
        · rw [if_neg hv, if_neg hrange, if_neg h5, if_neg hchar]
        · rw [if_neg h5, if_neg hchar]
          rfl

theorem processQuery_run (query : Request) (hdb : host.statedb = some db)
    (hfds : p.fds < host.maxFds) :
    Returns (processQuery (onDisk host) query p) (after query p) (outcome db query) := by
  by_cases h : Searches query
  · have hafter : after query p = { p with fds := p.fds + 1 } := if_pos h
    have hfind : (onDisk host).findData query.char1 query.char2 query.opcode.toNat p = _ :=
      findData_run hdb hfds
    rw [processQuery_searches _ h, outcome_searches db h, hafter]
    cases hfound : findIn db query.char1 query.char2 query.opcode.toNat with
    | error halt =>
      rw [hfound] at hfind
      exact ⟨halt, bind_of_error hfind⟩
    | ok r =>
      rw [hfound] at hfind
      rw [bind_of_ok hfind]
      cases r with
      | none => exact copy_run ((noStateMsg_length_le _ _).trans (by decide)) _
      | some data =>
        obtain ⟨hne, hlen⟩ := findIn_spec hfound
        have hcut : (cutText query.opcode data).bytes.length ≤ maxPackLen :=
          (cutText_strlen_le.trans hlen).trans (show 159 ≤ 500 by omega)
        dsimp only
        rw [bind_of_ok (cutLast_run hne _)]
        exact copy_run hcut _
  · obtain ⟨status, message, hout, hrun⟩ := processQuery_idle (onDisk host) h
    have hafter : after query p = p := if_neg h
    rw [hout db, hafter]
    exact hrun p

/-! ## One datagram -/

/-- A datagram that is answered; what does not fit into the buffer is not seen. -/
def Answered (m : Bytes) : Prop :=
  4 ≤ m.length ∧ (queryOf m).char1 ≠ 0 ∧ (queryOf m).char2 ≠ 0

instance (m : Bytes) : Decidable (Answered m) := inferInstanceAs (Decidable (_ ∧ _ ∧ _))

theorem serve_unanswered {σ : Type} {lib : DataUtils σ} {m : Bytes} (h : ¬Answered m) (s : σ) :
    serve lib m s = .ok none s := by
  unfold serve
  dsimp only [recvfrom]
  by_cases hshort : min m.length queryLength < 4
  · rw [if_pos hshort]
    rfl
  · have hlen : 4 ≤ m.length := (Nat.not_lt.mp hshort).trans (Nat.min_le_left _ _)
    have hnull : (queryOf m).char1 = 0 ∨ (queryOf m).char2 = 0 := by
      by_contra hn
      obtain ⟨h1, h2⟩ := not_or.mp hn
      exact h ⟨hlen, h1, h2⟩
    have hlong : ¬min m.length queryLength > 4 := Nat.not_lt.mpr (Nat.min_le_right _ _)
    rw [if_neg hshort, if_neg hlong, castRequest_zeroPad, if_pos hnull]
    rfl

/-- An answered datagram is a query and its response. -/
theorem serve_answered {σ : Type} (lib : DataUtils σ) {m : Bytes} (h : Answered m) :
    serve lib m = do
      let res ← processQuery lib (queryOf m)
      let sent ← sendto res.encode res.encode.length
      return some sent := by
  have hmin : min m.length queryLength = 4 := Nat.min_eq_right h.1
  unfold serve
  dsimp only [recvfrom]
  rw [if_neg (by rw [hmin]; decide), if_neg (by rw [hmin]; decide), castRequest_zeroPad,
    if_neg (not_or.mpr h.2)]

/-- The end of a round in `p`. -/
def Sends (run : EStateM.Result Halt Proc (Option Bytes)) (p : Proc) :
    Option (UInt8 × Bytes) → Prop
  | none => ∃ halt, run = .error halt p
  | some (status, message) => run = .ok (some (reply maxPackLen status message).encode) p

/-- **What a datagram comes to.** -/
theorem serve_run {m : Bytes} (h : Answered m) (hdb : host.statedb = some db)
    (hfds : p.fds < host.maxFds) :
    Sends (serve (onDisk host) m p) (after (queryOf m) p) (outcome db (queryOf m)) := by
  have hquery := processQuery_run (queryOf m) hdb hfds
  rw [serve_answered (onDisk host) h]
  cases hout : outcome db (queryOf m) with
  | none =>
    rw [hout] at hquery
    obtain ⟨halt, hrun⟩ := hquery
    exact ⟨halt, bind_of_error hrun⟩
  | some r =>
    rw [hout] at hquery
    obtain ⟨status, message⟩ := r
    have hrun : processQuery (onDisk host) (queryOf m) p = .ok (reply maxPackLen status message)
      (after (queryOf m) p) := hquery
    refine (bind_of_ok hrun).trans ?_
    exact bind_of_ok (sendto_run List.prefix_rfl _)

end Run

end StateProtocol.V1.Udp
