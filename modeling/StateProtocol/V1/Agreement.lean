import StateProtocol.Data.Records
import StateProtocol.V1.Tcp
import StateProtocol.V1.Udp

/-!
# The two version 1 servers agree

The chain of the checks exists twice. On a query of version 1 the two copies
come to the same status and text (`outcome_eq`), unless the second state
character is the byte 5: the UDP server tests that byte where it means the
opcode, and answers with status 0 and nothing. `agrees_iff` is the exact
condition.
-/

namespace StateProtocol.V1

open StateProtocol.Clib StateProtocol.Data

/-- The replies `t` over TCP and `u` over UDP are the answer to the query. -/
structure SameText (answer : UInt8 × Bytes) (t : Response maxDataLen) (u : Response maxPackLen) :
    Prop where
  status : u.status = t.status
  text : u.text = t.text
  answer : (u.status, u.text) = answer
  message : u.status ≠ 1 → u.status = 255 ∧ u.text ≠ []

/-- The servers agree on a query of version 1. -/
structure Agrees (host : Host) (db : Bytes) (os : List Offer) (opcode char1 char2 : UInt8) :
    Prop where
  text : opcode ≠ 5 → ∃ (t : Response maxDataLen) (u : Response maxPackLen) (q r : Proc),
    processQuery (onDisk host) ⟨4, [1, opcode, char1, char2], false, [], os⟩ = .ok () q ∧
    q.sent = t.encode ∧
    Udp.serve (onDisk host) [1, opcode, char1, char2] Proc.fresh = .ok (some u.encode) r ∧
    SameText (answerOf db host.flags ⟨1, opcode, char1, char2⟩) t u
  flag : opcode = 5 → ∃ (u : Response maxPackLen) (r : Proc),
    Udp.serve (onDisk host) [1, opcode, char1, char2] Proc.fresh = .ok (some u.encode) r ∧
    u.status = 254 ∧ u.text ≠ []

section

variable {host : Host} {db : Bytes} {flags : Bytes → Option Bytes} {query : Request}
  {status : UInt8} {message : Bytes}

/-- The two chains come to the same, but for the test of the second character. -/
theorem outcome_eq (hv : query.version = 1) (h5 : query.opcode ≠ 5)
    (hchar : 1 ≤ query.opcode.toNat → query.opcode.toNat ≤ 4 → query.char2 ≠ 5) :
    Udp.outcome db query = outcome db flags query := by
  unfold Udp.outcome outcome
  rw [if_neg (not_not.mpr hv)]
  by_cases hrange : query.opcode < 1 ∨ query.opcode > 5
  · rw [if_pos hrange, if_pos hrange]
  · obtain ⟨h1, h4⟩ := opcode_text hrange h5
    rw [if_neg hrange, if_neg hrange, if_neg h5]
    exact (if_pos (hchar h1 h4)).trans (if_pos h5).symm

/-- What the chain comes to is a text that fits into either payload. -/
theorem outcome_text (h5 : query.opcode ≠ 5)
    (h : outcome db flags query = some (status, message)) :
    0 ∉ message ∧ message.length ≤ maxLineLen - 1 := by
  have hnostate := (noStateMsg_length_le query.char1 query.char2).trans
    (show 30 ≤ maxLineLen - 1 by decide)
  unfold outcome at h
  by_cases hrange : query.opcode < 1 ∨ query.opcode > 5
  · rw [if_pos hrange] at h
    obtain ⟨-, rfl⟩ := Prod.mk.inj (Option.some.inj h)
    exact ⟨(opcodeMsg _).noNull, (opcodeMsg_length_le _).trans (by decide)⟩
  · rw [if_neg hrange, if_pos h5] at h
    split at h
    next => cases h
    next =>
      obtain ⟨-, rfl⟩ := Prod.mk.inj (Option.some.inj h)
      exact ⟨(noStateMsg _ _).noNull, hnostate⟩
    next data hfound =>
      obtain ⟨-, rfl⟩ := Prod.mk.inj (Option.some.inj h)
      exact ⟨(cutText _ _).noNull, cutText_strlen_le.trans (findIn_spec hfound).2⟩

/-- An error has a message. -/
theorem answerOf_message (h1 : query.char1 ≠ 0) (h2 : query.char2 ≠ 0)
    (h : (answerOf db flags query).1 ≠ 1) : (answerOf db flags query).2 ≠ [] := by
  have hnostate : (noStateMsg query.char1 query.char2).bytes ≠ [] := by
    rw [noStateMsg_bytes h1 h2]
    exact List.append_ne_nil_of_right_ne_nil _ (List.cons_ne_nil _ _)
  have hopcode : (opcodeMsg query.opcode).bytes ≠ [] := by
    rw [opcodeMsg_bytes]
    exact List.append_ne_nil_of_left_ne_nil (by decide) _
  unfold answerOf at h ⊢
  by_cases hv : query.version ≠ 1
  · rw [if_pos hv]
    exact show versionMsg ≠ [] by decide
  · rw [if_neg hv] at h ⊢
    by_cases hrange : query.opcode < 1 ∨ query.opcode > 5
    · rw [if_pos hrange]
      exact hopcode
    · rw [if_neg hrange] at h ⊢
      by_cases h5 : query.opcode ≠ 5
      · rw [if_pos h5] at h ⊢
        split at h
        next => exact hnostate
        next => exact absurd h (not_not.mpr rfl)
      · rw [if_neg h5] at h ⊢
        split at h
        next => exact hnostate
        next => exact absurd h (not_not.mpr rfl)

variable {opcode char1 char2 : UInt8} {os : FullOffers 19006 2}

/-- Servers that agree are asked about a state code that does not end in 5. -/
theorem Agrees.char2_ne (hdb : host.statedb = some db) (h1 : char1 ≠ 0) (h2 : char2 ≠ 0)
    (hlow : 1 ≤ opcode.toNat) (hhigh : opcode.toNat ≤ 4)
    (h : Agrees host db os.offers opcode char1 char2) : char2 ≠ 5 := by
  intro h5
  have hrange : ¬(opcode < 1 ∨ opcode > 5) := opcode_range.mpr ⟨hlow, by omega⟩
  obtain ⟨t, u, q, r, -, -, hserve, hsame⟩ := h.text (text_ne_five hhigh)
  have hudp := Udp.serve_run (m := [1, opcode, char1, char2]) ⟨Nat.le_refl 4, h1, h2⟩ hdb
    (fresh_fds host)
  have hout : Udp.outcome db (queryOf [1, opcode, char1, char2]) = some (0, []) := by
    show Udp.outcome db ⟨1, opcode, char1, char2⟩ = _
    rw [Udp.outcome, if_neg (not_not.mpr rfl), if_neg hrange, if_neg (text_ne_five hhigh),
      if_neg (not_not.mpr h5)]
  rw [hout, hserve] at hudp
  -- the reply has status 0, which is no answer
  obtain ⟨hsent, -⟩ := EStateM.Result.ok.inj hudp
  have hu : u = reply maxPackLen 0 [] := Response.encode_injective (Option.some.inj hsent)
  have hstatus : u.status = 0 := by rw [hu, reply]
  have hanswer := (answerOf_status db host.flags ⟨1, opcode, char1, char2⟩).2
  rw [← hsame.answer, hstatus] at hanswer
  exact absurd hanswer (show ¬((0 : UInt8) = 1 ∨ (0 : UInt8) = 255) by decide)

/-- And they can scan the database for it. -/
theorem Agrees.tidy (hdb : host.statedb = some db) (h1 : char1 ≠ 0) (h2 : char2 ≠ 0)
    (hlow : 1 ≤ opcode.toNat) (hhigh : opcode.toNat ≤ 4)
    (h : Agrees host db os.offers opcode char1 char2) :
    Data.Tidy db char1 char2 opcode.toNat := by
  have h5 := text_ne_five hhigh
  obtain ⟨t, u, q, r, hquery, hsent, -, hsame⟩ := h.text h5
  have htcp := processQuery_answers hdb (fun he => absurd he h5) os h1 h2
  rw [hquery] at htcp
  cases hout : outcome db host.flags ⟨1, opcode, char1, char2⟩ with
  | none =>
    rw [hout] at htcp
    obtain ⟨halt, q', hq', -⟩ := htcp
    cases hq'
  | some r =>
    obtain ⟨status, message⟩ := r
    rw [hout] at htcp
    obtain ⟨q', hq', hsent'⟩ := htcp
    cases hq'
    obtain ⟨h0, hlen⟩ := outcome_text h5 hout
    -- the bytes on the connection determine the response, and it carries the answer
    have ht : t = reply maxDataLen status message :=
      Response.encode_injective (hsent.symm.trans hsent')
    have htext : message = (answerOf db host.flags ⟨1, opcode, char1, char2⟩).2 := by
      rw [← hsame.answer, hsame.text, ht, reply_text h0 (hlen.trans (by decide))]
    have htidy : Request.Tidy ⟨1, opcode, char1, char2⟩ db :=
      tidy_of_outcome rfl (show 160 ≤ 19000 by omega) hout (congrArg _ htext)
    exact htidy hlow hhigh

/-- A text opcode, or none, is answered the same. -/
theorem agrees_text (hdb : host.statedb = some db) (h1 : char1 ≠ 0) (h2 : char2 ≠ 0)
    (h5 : opcode ≠ 5) (hcond : 1 ≤ opcode.toNat → opcode.toNat ≤ 4 →
      char2 ≠ 5 ∧ Data.Tidy db char1 char2 opcode.toNat) :
    Agrees host db os.offers opcode char1 char2 := by
  refine ⟨fun _ => ?_, fun he => absurd he h5⟩
  have hout : outcome db host.flags ⟨1, opcode, char1, char2⟩
      = some (answerOf db host.flags ⟨1, opcode, char1, char2⟩) :=
    outcome_eq_answerOf rfl fun hl hh => (hcond hl hh).2
  have hudp := Udp.serve_run (m := [1, opcode, char1, char2]) ⟨Nat.le_refl 4, h1, h2⟩ hdb
    (fresh_fds host)
  have htcp := processQuery_answers hdb (fun he => absurd he h5) os h1 h2
  have hsame : Udp.outcome db (queryOf [1, opcode, char1, char2])
      = outcome db host.flags ⟨1, opcode, char1, char2⟩ :=
    outcome_eq rfl h5 fun hl hh => (hcond hl hh).1
  have hstatus := (answerOf_status db host.flags ⟨1, opcode, char1, char2⟩).2
  have hmessage : (answerOf db host.flags ⟨1, opcode, char1, char2⟩).1 ≠ 1 → _ :=
    answerOf_message h1 h2
  rw [hsame] at hudp
  rw [hout] at htcp hudp
  -- from here on only the status and the text of the answer matter
  generalize answerOf db host.flags ⟨1, opcode, char1, char2⟩ = answer at *
  obtain ⟨status, message⟩ := answer
  obtain ⟨h0, hlen⟩ := outcome_text h5 hout
  obtain ⟨q, hq, hsent⟩ := htcp
  have hu : (reply maxPackLen status message).text = message :=
    reply_text h0 (hlen.trans (by decide))
  have ht : (reply maxDataLen status message).text = message :=
    reply_text h0 (hlen.trans (by decide))
  refine ⟨reply maxDataLen status message, reply maxPackLen status message, q, _, hq, hsent, hudp,
    rfl, hu.trans ht.symm, ?_, fun hne => ⟨hstatus.resolve_left hne, ?_⟩⟩
  · rw [hu]
    rfl
  · rw [hu]
    exact hmessage hne

/-- A flag is refused. -/
theorem agrees_flag (hdb : host.statedb = some db) (h1 : char1 ≠ 0) (h2 : char2 ≠ 0) :
    Agrees host db os.offers 5 char1 char2 := by
  refine ⟨fun h => absurd rfl h, fun _ => ?_⟩
  have hudp : Udp.Sends _ _ (some (254, Udp.tooLargeMsg)) :=
    Udp.serve_run (m := [1, 5, char1, char2]) ⟨Nat.le_refl 4, h1, h2⟩ hdb (fresh_fds host)
  refine ⟨reply maxPackLen 254 Udp.tooLargeMsg, _, hudp, rfl, ?_⟩
  rw [reply_text (by decide) (by decide)]
  decide

end

/-- **When the two servers agree.** -/
theorem agrees_iff (host : Host) (db : Bytes) (hdb : host.statedb = some db)
    (opcode char1 char2 : UInt8) (h1 : char1 ≠ 0) (h2 : char2 ≠ 0) (os : FullOffers 19006 2) :
    Agrees host db os.offers opcode char1 char2 ↔
      (1 ≤ opcode.toNat → opcode.toNat ≤ 4 →
        char2 ≠ 5 ∧ Data.Tidy db char1 char2 opcode.toNat) := by
  constructor
  · intro h hlow hhigh
    exact ⟨h.char2_ne hdb h1 h2 hlow hhigh, h.tidy hdb h1 h2 hlow hhigh⟩
  · intro h
    by_cases h5 : opcode = 5
    · rw [h5]
      exact agrees_flag hdb h1 h2
    · exact agrees_text hdb h1 h2 h5 h

set_option maxRecDepth 1024 in
/-- A query for the name of New Hampshire. -/
theorem agrees_name :
    Agrees Host.pair (Record.file [delaware, newHampshire]) (FullOffers.replicate 19005 2).offers
      1 110 104 :=
  (agrees_iff Host.pair (Record.file [delaware, newHampshire]) rfl 1 110 104 (by decide)
    (by decide) _).mpr fun _ h4 => ⟨by decide,
      Record.records_tidy [delaware, newHampshire] (by decide) (by decide) h4⟩

/-- The servers do not agree on a state code that ends in the byte 5. -/
theorem not_agrees_five :
    ¬Agrees Host.small (Record.file [newHampshire]) (FullOffers.replicate 19005 2).offers
      1 110 5 := fun h =>
  absurd rfl (h.char2_ne rfl (by decide) (by decide) (by decide) (by decide))

end StateProtocol.V1
