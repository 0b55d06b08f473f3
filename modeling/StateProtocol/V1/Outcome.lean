import StateProtocol.V1.Packets

/-!
# The answer to a version 1 query

`answerOf` is what the protocol calls for, check by check. `outcome` is what the
chain of the opcodes in the servers comes to, once the version has been dealt
with and if flags can be sent. For a query of version 1 the two are the same
when the database is tidy where it is asked (`outcome_eq_answerOf`), and only
then (`tidy_of_outcome`).
-/

namespace StateProtocol.V1

open StateProtocol.Clib StateProtocol.Data

/-- What a server that can send flags answers to the opcode of a query: the
status and the payload, or nothing when `find_data` does not return. -/
def outcome (db : Bytes) (flags : Bytes → Option Bytes) (query : Request) :
    Option (UInt8 × Bytes) :=
  if query.opcode < 1 ∨ query.opcode > 5 then some (255, (opcodeMsg query.opcode).bytes)
  else if query.opcode ≠ 5 then
    match findIn db query.char1 query.char2 query.opcode.toNat with
    | .error _ => none
    | .ok none => some (255, (noStateMsg query.char1 query.char2).bytes)
    | .ok (some data) => some (1, (cutText query.opcode data).bytes)
  else
    match flags (constructGifFilename query.char1 query.char2) with
    | none => some (255, (noStateMsg query.char1 query.char2).bytes)
    | some data => some (1, data)

/-- What the protocol calls for: the data that is asked for, or the message of
the first check that fails. -/
def answerOf (db : Bytes) (flags : Bytes → Option Bytes) (query : Request) : UInt8 × Bytes :=
  if query.version ≠ 1 then (255, versionMsg)
  else if query.opcode < 1 ∨ query.opcode > 5 then (255, (opcodeMsg query.opcode).bytes)
  else if query.opcode ≠ 5 then
    match textField db query.char1 query.char2 query.opcode.toNat with
    | none => (255, (noStateMsg query.char1 query.char2).bytes)
    | some field => (1, field)
  else
    match flags (constructGifFilename query.char1 query.char2) with
    | none => (255, (noStateMsg query.char1 query.char2).bytes)
    | some data => (1, data)

/-- Is there something to send for the opcode? -/
def Exists (db : Bytes) (flags : Bytes → Option Bytes) (query : Request) : Prop :=
  if query.opcode ≠ 5 then
    (textField db query.char1 query.char2 query.opcode.toNat).isSome
  else (flags (constructGifFilename query.char1 query.char2)).isSome

/-- The scan for a text opcode goes well. -/
def Request.Tidy (query : Request) (db : Bytes) : Prop :=
  1 ≤ query.opcode.toNat → query.opcode.toNat ≤ 4 →
    Data.Tidy db query.char1 query.char2 query.opcode.toNat

section

variable {db : Bytes} {flags : Bytes → Option Bytes} {query : Request}

theorem opcode_range {opcode : UInt8} :
    ¬(opcode < 1 ∨ opcode > 5) ↔ 1 ≤ opcode.toNat ∧ opcode.toNat ≤ 5 := by
  rw [gt_iff_lt, UInt8.lt_iff_toNat_lt, UInt8.lt_iff_toNat_lt]
  simp
  omega

theorem opcode_text {opcode : UInt8} (h : ¬(opcode < 1 ∨ opcode > 5)) (h5 : opcode ≠ 5) :
    1 ≤ opcode.toNat ∧ opcode.toNat ≤ 4 := by
  have hrange := opcode_range.mp h
  have hne : opcode.toNat ≠ 5 := fun he => h5 (UInt8.toNat_inj.mp he)
  omega

theorem text_ne_five {opcode : UInt8} (h4 : opcode.toNat ≤ 4) : opcode ≠ 5 := by
  rintro rfl
  exact absurd h4 (by decide)

/-- The status says whether there is something to send. -/
theorem answerOf_status (db : Bytes) (flags : Bytes → Option Bytes) (query : Request) :
    ((answerOf db flags query).1 = 1 ↔ query.version = 1 ∧ 1 ≤ query.opcode.toNat ∧
      query.opcode.toNat ≤ 5 ∧ Exists db flags query) ∧
    ((answerOf db flags query).1 = 1 ∨ (answerOf db flags query).1 = 255) := by
  unfold answerOf Exists
  by_cases hv : query.version ≠ 1
  · rw [if_pos hv]
    exact ⟨iff_of_false (by decide) fun h => hv h.1, Or.inr rfl⟩
  · rw [if_neg hv]
    by_cases hrange : query.opcode < 1 ∨ query.opcode > 5
    · rw [if_pos hrange]
      refine ⟨iff_of_false (show ¬(255 : UInt8) = 1 by decide) fun h => ?_, Or.inr rfl⟩
      exact opcode_range.mpr ⟨h.2.1, h.2.2.1⟩ hrange
    · obtain ⟨h1, h5⟩ := opcode_range.mp hrange
      have hall : ∀ P : Prop, (query.version = 1 ∧ 1 ≤ query.opcode.toNat ∧
          query.opcode.toNat ≤ 5 ∧ P) ↔ P :=
        fun P => ⟨fun h => h.2.2.2, fun h => ⟨not_not.mp hv, h1, h5, h⟩⟩
      rw [if_neg hrange, hall]
      split
      · split
        next hnone => simp [hnone]
        next field hsome => simp [hsome]
      · split
        next hnone => simp [hnone]
        next data hsome => simp [hsome]

/-- Without trouble in the database the servers answer as the protocol says. -/
theorem outcome_eq_answerOf (hv : query.version = 1) (htidy : query.Tidy db) :
    outcome db flags query = some (answerOf db flags query) := by
  unfold outcome answerOf
  rw [if_neg (not_not.mpr hv)]
  by_cases hrange : query.opcode < 1 ∨ query.opcode > 5
  · rw [if_pos hrange, if_pos hrange]
  · rw [if_neg hrange, if_neg hrange]
    by_cases h5 : query.opcode ≠ 5
    · obtain ⟨h1, h4⟩ := opcode_text hrange h5
      have htext := htidy h1 h4
      rw [if_pos h5, if_pos h5, textField]
      unfold Data.Tidy at htext
      cases hfound : findIn db query.char1 query.char2 query.opcode.toNat with
      | error halt =>
        rw [hfound] at htext
        exact absurd htext id
      | ok r =>
        rw [hfound] at htext
        cases r with
        | none => rfl
        | some data =>
          have heq := (cutText_eq_iff (findIn_spec hfound).1).mpr htext
          exact congrArg (fun m => some ((1 : UInt8), m)) heq
    · rw [if_neg h5, if_neg h5]
      split <;> rfl

/-- Conversely, an answer as the protocol says shows that the scan went well;
the payload is as good as the text in a cleared array that can hold a line. -/
theorem tidy_of_outcome {n : Nat} {status : UInt8} {message : Bytes} (hv : query.version = 1)
    (hn : maxLineLen ≤ n) (h : outcome db flags query = some (status, message))
    (hpay : zeroPad n message = zeroPad n (answerOf db flags query).2) : query.Tidy db := by
  intro h1 h4
  have hrange : ¬(query.opcode < 1 ∨ query.opcode > 5) := opcode_range.mpr ⟨h1, by omega⟩
  have h5 : query.opcode ≠ 5 := by
    intro h5
    rw [h5] at h4
    exact absurd h4 (by decide)
  rw [outcome, if_neg hrange, if_pos h5] at h
  rw [answerOf, if_neg (not_not.mpr hv), if_neg hrange, if_pos h5, textField] at hpay
  unfold Data.Tidy
  cases hfound : findIn db query.char1 query.char2 query.opcode.toNat with
  | error halt =>
    rw [hfound] at h
    cases h
  | ok r =>
    rw [hfound] at h hpay
    cases r with
    | none => trivial
    | some data =>
      obtain ⟨hne, hlen⟩ := findIn_spec hfound
      obtain ⟨-, rfl⟩ := Prod.mk.inj (Option.some.inj h)
      have hcut : (cutText query.opcode data).strlen ≤ data.strlen := cutText_strlen_le
      have hfield := withoutNewline_length_le data.bytes
      have hmax : maxLineLen - 1 ≤ n := (Nat.sub_le _ _).trans hn
      -- both texts fit, so equal payloads are equal texts
      refine (cutText_eq_iff hne).mp
        (zeroPad_injOn (cutText query.opcode data).noNull ?_ ?_ ?_ hpay)
      · exact fun h0 => data.noNull (withoutNewline_subset _ h0)
      · exact (hcut.trans hlen).trans hmax
      · exact (hfield.trans hlen).trans hmax

end

end StateProtocol.V1
