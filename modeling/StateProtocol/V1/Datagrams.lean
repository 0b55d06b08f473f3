import StateProtocol.Data.Records
import StateProtocol.V1.Udp

/-!
# Which datagrams the version 1 UDP server answers

The receive loop asks for four bytes and then tests for fewer and for more. More
than it has asked for never come, so a datagram that is too long is answered
like the query it begins with (`replies_iff`), and only what does not begin with
one is discarded (`discards_iff`). The server answers exactly the four-byte
queries and discards the rest only as far as no such datagram is sent to it, and as
far as it can read its database for a query (`repliesExactly_iff`).
-/

namespace StateProtocol.V1.Udp

open StateProtocol.Clib StateProtocol.Data

/-- The lookup that the query leads to, if it leads to one, returns. -/
def Reads (host : Host) (p : Proc) (query : Request) : Prop :=
  Searches query → p.fds < host.maxFds ∧ ∃ db data, host.statedb = some db ∧
    findIn db query.char1 query.char2 query.opcode.toNat = .ok data

/-- A datagram is sent back. -/
def Replies (host : Host) (p : Proc) (m : Bytes) : Prop :=
  ∃ sent t, serve (onDisk host) m p = .ok (some sent) t

/-- It is a query of four bytes about a state code without a null. -/
def IsQuery (m : Bytes) : Prop := m.length = 4 ∧ m.getD 2 0 ≠ 0 ∧ m.getD 3 0 ≠ 0

/-- A query is answered, with one datagram. Everything else is discarded: nothing is
sent, and the server goes on as it was. -/
structure RepliesExactly (host : Host) (p : Proc) (m : Bytes) : Prop where
  replies : IsQuery m → Replies host p m
  discards : ¬IsQuery m → serve (onDisk host) m p = .ok none p

section

variable {host : Host} {p : Proc} {m : Bytes}

/-- A query whose lookup does not return ends the server. -/
theorem processQuery_stuck {query : Request} (h : ¬Reads host p query) :
    ∃ halt t, processQuery (onDisk host) query p = .error halt t := by
  obtain ⟨hsearch, hnone⟩ := Classical.not_imp.mp h
  rw [processQuery_searches _ hsearch]
  rcases findData_cases host query.char1 query.char2 query.opcode.toNat p with hexit |
    ⟨db, halt, -, -, hhalt⟩ | ⟨db, data, hfds, hdb, hfound, -⟩
  · exact ⟨_, _, bind_of_error hexit⟩
  · exact ⟨_, _, bind_of_error hhalt⟩
  · exact absurd ⟨hfds, db, data, hdb, hfound⟩ hnone

/-- One whose lookup returns is answered. -/
theorem processQuery_returns {query : Request} (h : Reads host p query) :
    ∃ res t, processQuery (onDisk host) query p = .ok res t := by
  by_cases hsearch : Searches query
  · obtain ⟨hfds, db, data, hdb, hfound⟩ := h hsearch
    have hrun := processQuery_run query hdb hfds
    have hout : ∃ r, outcome db query = some r := by
      rw [outcome_searches db hsearch, hfound]
      cases data with
      | none => exact ⟨_, rfl⟩
      | some data => exact ⟨_, rfl⟩
    obtain ⟨⟨status, message⟩, hout⟩ := hout
    rw [hout] at hrun
    exact ⟨_, _, hrun⟩
  · obtain ⟨status, message, -, hrun⟩ := processQuery_idle (onDisk host) hsearch
    exact ⟨_, _, hrun p⟩

/-- What is answered: whatever begins with a query. -/
theorem replies_iff : Replies host p m ↔ Answered m ∧ Reads host p (queryOf m) := by
  unfold Replies
  by_cases hans : Answered m
  · rw [serve_answered _ hans, and_iff_right hans]
    constructor
    · rintro ⟨sent, t, hrun⟩
      by_contra hstuck
      obtain ⟨halt, u, hquery⟩ := processQuery_stuck hstuck
      rw [bind_of_error hquery] at hrun
      cases hrun
    · intro hreads
      obtain ⟨res, t, hquery⟩ := processQuery_returns hreads
      exact ⟨res.encode, t, (bind_of_ok hquery).trans (bind_of_ok (sendto_run List.prefix_rfl t))⟩
  · rw [serve_unanswered hans]
    refine iff_of_false ?_ fun h => hans h.1
    rintro ⟨sent, t, hrun⟩
    cases hrun

/-- What is discarded: whatever does not. -/
theorem discards_iff : serve (onDisk host) m p = .ok none p ↔ ¬Answered m := by
  constructor
  · intro hnone hans
    rw [serve_answered _ hans] at hnone
    obtain ⟨res, t, -, hsend⟩ := bind_eq_ok.mp hnone
    obtain ⟨sent, u, -, hreturn⟩ := bind_eq_ok.mp hsend
    cases hreturn
  · exact fun hans => serve_unanswered hans p

theorem IsQuery.answered (h : IsQuery m) : Answered m := ⟨h.1.ge, h.2⟩

end

/-- **When exactly the four-byte queries are answered.** -/
theorem repliesExactly_iff (host : Host) (p : Proc) (m : Bytes) :
    RepliesExactly host p m ↔
      (m.length ≤ 4 ∨ m.getD 2 0 = 0 ∨ m.getD 3 0 = 0) ∧
        (IsQuery m → Reads host p (queryOf m)) := by
  constructor
  · intro h
    refine ⟨?_, fun hquery => (replies_iff.mp (h.replies hquery)).2⟩
    by_contra hlong
    simp only [not_or, Nat.not_le] at hlong
    obtain ⟨hlen, h1, h2⟩ := hlong
    -- it begins with a query, and is none
    have hans : Answered m := ⟨hlen.le, h1, h2⟩
    exact discards_iff.mp (h.discards fun hquery => hlen.ne' hquery.1) hans
  · rintro ⟨hshort, hreads⟩
    refine ⟨fun hquery => replies_iff.mpr ⟨hquery.answered, hreads hquery⟩, fun hnot => ?_⟩
    refine discards_iff.mpr fun hans => hnot ⟨?_, hans.2⟩
    exact le_antisymm (hshort.resolve_right (not_or.mpr hans.2)) hans.1

/-- A query for a flag with one byte more. -/
theorem not_repliesExactly_long :
    ¬RepliesExactly Host.small Proc.fresh [1, 5, 110, 104, 0] := fun h =>
  discards_iff.mp (h.discards (by simp [IsQuery])) (by decide)

end StateProtocol.V1.Udp
