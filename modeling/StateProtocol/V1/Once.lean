import StateProtocol.Data.Records
import StateProtocol.V1.Tcp

/-!
# One response for one query

What a client of the version 1 TCP server is owed: nothing for less than four
bytes or a null state character, and otherwise one response, with the answer the
protocol calls for (`AnswersOnce`).

A wrong version breaks that, as the server answers the version and then the
opcode; so does a database that `find_data` cannot scan, or whose newlines are
not where the server expects them. `answersOnce_iff` says that these are the
only ways.
-/

namespace StateProtocol.V1

open StateProtocol.Clib StateProtocol.Data

/-- The server started in `p` answers the query that the client sends. -/
structure AnswersOnce (host : Host) (db : Bytes) (p : Proc) : Prop where
  silent : p.input.length < 4 ∨ (queryOf p.input).char1 = 0 ∨ (queryOf p.input).char2 = 0 →
    (finalState (processQuery (onDisk host)) p).sent = p.sent
  frame : 4 ≤ p.input.length → (queryOf p.input).char1 ≠ 0 → (queryOf p.input).char2 ≠ 0 →
    ∃ q, processQuery (onDisk host) p = .ok () q ∧
      q.sent = p.sent ++ (reply maxDataLen (answerOf db host.flags (queryOf p.input)).1
        (answerOf db host.flags (queryOf p.input)).2).encode

section

variable {host : Host} {db : Bytes} {p : Proc} {s : Bytes}

theorem processQuery_silent (hin : p.input = s)
    (h : s.length < 4 ∨ (queryOf s).char1 = 0 ∨ (queryOf s).char2 = 0) :
    (finalState (processQuery (onDisk host)) p).sent = p.sent := by
  by_cases hs : s.length < 4
  · rw [finalState_of_error (processQuery_short hin hs)]
  · have hnull := h.resolve_left hs
    have hrun : processQuery (onDisk host) p = .error (.exit 1) { p with input := s.drop 4 } := by
      rw [processQuery_reads hin (Nat.not_lt.mp hs), respond, if_pos hnull]
      rfl
    rw [finalState_of_error hrun]

/-- An answer that is one response is the answer to the opcode, and the version
is right: with a wrong one there are two responses, and too many bytes. -/
theorem AnswersOnce.outcome (hdb : host.statedb = some db)
    (hflags : ∀ name data, host.flags name = some data → data.length ≤ maxDataLen)
    (os : FullOffers 19006 2) (broken : Bool) (hs : 4 ≤ s.length)
    (h1 : (queryOf s).char1 ≠ 0) (h2 : (queryOf s).char2 ≠ 0)
    (h : AnswersOnce host db ⟨4, s, broken, [], os.offers⟩) :
    (queryOf s).version = 1 ∧ ∃ status message,
      V1.outcome db host.flags (queryOf s) = some (status, message) ∧
      zeroPad maxDataLen message
        = zeroPad maxDataLen (answerOf db host.flags (queryOf s)).2 := by
  obtain ⟨q, hq, hsent⟩ := h.frame hs h1 h2
  dsimp only at hq hsent
  rw [List.nil_append] at hsent
  have hleaves := processQuery_leaves hdb (fun _ => hflags _) os broken hs h1 h2
  rw [hq] at hleaves
  cases hout : V1.outcome db host.flags (queryOf s) with
  | none =>
    rw [hout] at hleaves
    obtain ⟨halt, r, hr, -⟩ := hleaves
    cases hr
  | some r =>
    obtain ⟨status, message⟩ := r
    rw [hout] at hleaves
    obtain ⟨r, hr, hr'⟩ := hleaves
    cases hr
    have hv : (queryOf s).version = 1 := by
      -- with a wrong version there are two responses, which is too long
      by_contra hv
      have hlen := congrArg List.length (hr'.symm.trans hsent)
      rw [versionPart, if_pos hv, List.length_append, Response.encode_length,
        Response.encode_length, Response.encode_length] at hlen
      exact absurd hlen (by decide)
    rw [versionPart, if_neg (not_not.mpr hv), List.nil_append] at hr'
    have hreply := Response.encode_injective (hr'.symm.trans hsent)
    exact ⟨hv, status, message, rfl, congrArg Response.payload hreply⟩

end

/-- **When exactly one response is sent.** -/
theorem answersOnce_iff (host : Host) (db : Bytes) (hdb : host.statedb = some db)
    (hflags : ∀ name data, host.flags name = some data → data.length ≤ maxDataLen)
    (s : Bytes) (broken : Bool) (os : FullOffers 19006 2) :
    AnswersOnce host db ⟨4, s, broken, [], os.offers⟩ ↔
      (4 ≤ s.length → (queryOf s).char1 ≠ 0 → (queryOf s).char2 ≠ 0 →
        (queryOf s).version = 1 ∧ (queryOf s).Tidy db) := by
  constructor
  · intro h hs h1 h2
    obtain ⟨hv, status, message, hout, hpay⟩ := h.outcome hdb hflags os broken hs h1 h2
    exact ⟨hv, tidy_of_outcome hv (show 160 ≤ 19000 by omega) hout hpay⟩
  · intro h
    refine ⟨fun hsilent => processQuery_silent rfl hsilent, fun hs h1 h2 => ?_⟩
    obtain ⟨hv, htidy⟩ := h hs h1 h2
    have hleaves := processQuery_leaves hdb (fun _ => hflags _) os broken hs h1 h2
    rw [outcome_eq_answerOf hv htidy, versionPart, if_neg (not_not.mpr hv)] at hleaves
    exact hleaves

/-- A well-formed database is tidy where a query asks. -/
theorem Request.tidy_records (rs : List Record) {query : Request} (h1 : query.char1 ≠ 0)
    (h2 : query.char2 ≠ 0) : query.Tidy (Record.file rs) :=
  fun _ h4 => Record.records_tidy rs h1 h2 h4

set_option maxRecDepth 1024 in
/-- A query for the name of New Hampshire, with more behind it. -/
theorem answersOnce_name :
    AnswersOnce Host.pair (Record.file [delaware, newHampshire])
      ⟨4, [1, 1, 110, 104, 7], false, [], (FullOffers.replicate 19005 2).offers⟩ :=
  (answersOnce_iff Host.pair (Record.file [delaware, newHampshire]) rfl (fun _ _ h => by cases h)
    [1, 1, 110, 104, 7] false (FullOffers.replicate 19005 2)).mpr fun _ h1 h2 =>
      ⟨rfl, Request.tidy_records [delaware, newHampshire] h1 h2⟩

/-- The same query with version 2 gets two responses. -/
theorem wrong_version_answered_twice :
    ¬AnswersOnce Host.small (Record.file [newHampshire])
      ⟨4, [2, 1, 110, 104], false, [], (FullOffers.replicate 19005 2).offers⟩ := by
  intro h
  have hv := (h.outcome rfl (fun _ _ h => by cases h) (FullOffers.replicate 19005 2) false
    (by decide) (by decide) (by decide)).1
  exact absurd hv (by decide)

end StateProtocol.V1
