import StateProtocol.Clib.Socket
import StateProtocol.V2.Udp

/-!
# What the version 2 UDP server counts

The parser compares the announced number of opcodes with those it finds, but it
sees the nine bytes that were received. Of a longer datagram the rest is gone
(`opcodesOf_eq`), and opcodes in it are neither counted nor refused: the count
is checked against the whole datagram as long as nothing but nulls is cut off a
query that is answered (`countsAll_iff`).
-/

namespace StateProtocol.V2

open StateProtocol.Clib StateProtocol.Data

/-- The part of a datagram that the server gets. -/
def seen (m : Bytes) : Request := castRequest (zeroPad queryLen m)

/-- The opcodes in a datagram, wherever they stand. -/
def opcodesOf (m : Bytes) : Bytes := (m.drop 4).filter (· ≠ 0)

/-- The part that the server gets is a query, and all its lookups succeed. -/
structure Answerable (db : Lookup) (m : Bytes) : Prop where
  accepted : Accepted (seen m)
  found : ∀ q ∈ (seen m).executed, Found db (seen m).char1 (seen m).char2 q

/-- The reply `sent` respects the count of `m`: it is no success and no success
too large if the count is wrong, and an error if there are too many opcodes. -/
structure Counted (m sent : Bytes) : Prop where
  exact : sent.getD 1 0 = 1 ∨ sent.getD 1 0 = 254 → (opcodesOf m).length = (m.getD 1 0).toNat
  refused : (m.getD 1 0).toNat < (opcodesOf m).length ∨ 5 < (opcodesOf m).length →
    sent.getD 1 0 = 255

/-- The datagram gets a reply that respects its count. -/
def CountsAll (db : Lookup) (m : Bytes) : Prop :=
  ∀ p : Proc, ∃ sent, serve (ofLookup db) m p = .ok sent p ∧ Counted m sent

section

variable {db : Lookup} {m : Bytes}

theorem seen_numQueries (m : Bytes) : (seen m).numQueries = m.getD 1 0 := by
  rw [seen, castRequest_zeroPad]

/-- The opcodes are those that were received and those that were cut off. -/
theorem opcodesOf_eq (m : Bytes) :
    opcodesOf m = (seen m).asked ++ (m.drop queryLen).filter (· ≠ 0) := by
  have hasked : (seen m).asked = ((m.drop 4).take 5).filter (· ≠ 0) := by
    rw [Request.asked, seen, castRequest_zeroPad]
    dsimp only [maxOpcodes]
    rw [zeroPad_toList, List.filter_append]
    simp
  rw [hasked, ← List.filter_append, show m.drop queryLen = (m.drop 4).drop 5 by
    rw [List.drop_drop]; rfl, List.take_append_drop]
  rfl

/-- The status is the second byte of what is sent. -/
theorem status_sent (res : Response) : res.blocks.flatten.getD 1 0 = res.status := rfl

theorem udpReply_of_answerable (h : Answerable db m) :
    (udpReply db m).status = 1 ∨ (udpReply db m).status = 254 := by
  have hcast : castRequest (zeroPad queryLen m) = seen m := rfl
  obtain ⟨a, -, hreply⟩ := replyTo_found hcast h.accepted h.found
  rw [udpReply, if_neg h.accepted.long, hreply]
  dsimp only
  split
  · exact Or.inr rfl
  · exact Or.inl rfl

/-- Everything else gets the error. -/
theorem udpReply_of_not_answerable (h : ¬Answerable db m) : (udpReply db m).status = 255 := by
  have hsize : ¬calcPacketSize errorReply > maxPackLen := by
    rw [errorReply, (messageReply_packed 255 invalidQueryMsg).size]
    decide
  have hreply : replyTo db (parseQuery (zeroPad queryLen m)) = errorReply :=
    replyTo_refused rfl fun hboth => h ⟨hboth.1, hboth.2⟩
  unfold udpReply
  split
  · rfl
  · rw [hreply]
    dsimp only
    rw [if_neg hsize]
    rfl

/-- An accepted query counts what was received. -/
theorem Answerable.count (h : Answerable db m) :
    (opcodesOf m).length = (m.getD 1 0).toNat + ((m.drop queryLen).filter (· ≠ 0)).length := by
  rw [opcodesOf_eq, List.length_append, ← h.accepted.count, seen_numQueries]

/-- The announced number is the whole number when nothing but nulls is cut off. -/
theorem Answerable.count_iff (h : Answerable db m) :
    (opcodesOf m).length = (m.getD 1 0).toNat ↔ ∀ b ∈ m.drop queryLen, b = 0 := by
  rw [h.count, Nat.add_eq_left, List.length_eq_zero_iff, List.filter_eq_nil_iff]
  simp

end

/-- **When the count is checked against the whole datagram.** -/
theorem countsAll_iff (db : Lookup) (m : Bytes) :
    CountsAll db m ↔ (Answerable db m → ∀ b ∈ m.drop queryLen, b = 0) := by
  constructor
  · intro h hans
    obtain ⟨sent, hrun, hcounted⟩ := h Proc.fresh
    rw [serve_run] at hrun
    obtain ⟨rfl, -⟩ := EStateM.Result.ok.inj hrun
    exact hans.count_iff.mp (hcounted.exact (udpReply_of_answerable hans))
  · intro h p
    refine ⟨_, serve_run db m p, ?_⟩
    by_cases hans : Answerable db m
    · have hcount := hans.count_iff.mpr (h hans)
      have hle := hans.accepted.count_le
      rw [seen_numQueries] at hle
      refine ⟨fun _ => hcount, ?_⟩
      intro hmore
      omega
    · have herror := udpReply_of_not_answerable hans
      refine ⟨?_, fun _ => herror⟩
      intro hok
      rw [status_sent, herror] at hok
      exact absurd hok (by decide)

/-- One opcode announced, and a second one behind four nulls. -/
theorem not_countsAll_tenth :
    ¬CountsAll (Lookup.const (cstr [72, 105]) [71]) [2, 1, 110, 104, 1, 0, 0, 0, 0, 1] := by
  intro h
  have hparse : parseQuery (zeroPad queryLen [2, 1, 110, 104, 1, 0, 0, 0, 0, 1])
      = some (seen [2, 1, 110, 104, 1, 0, 0, 0, 0, 1]) := by decide
  have hans : Answerable (Lookup.const (cstr [72, 105]) [71])
      [2, 1, 110, 104, 1, 0, 0, 0, 0, 1] :=
    ⟨(parseQuery_eq_some.mp hparse).2, fun q _ => const_found _ _ _ _ q⟩
  obtain ⟨sent, hrun, hcounted⟩ := h Proc.fresh
  rw [serve_run] at hrun
  obtain ⟨rfl, -⟩ := EStateM.Result.ok.inj hrun
  exact absurd (hcounted.exact (udpReply_of_answerable hans)) (by decide)

end StateProtocol.V2
