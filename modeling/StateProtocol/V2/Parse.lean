import StateProtocol.V2.Utils

/-!
# What `parse_query` accepts

`asked` are the opcodes of a request in order of occurrence, the nulls left out;
`executed` are the positions `execute_query` will run. The parser sees to it
that there are as many of the one as of the other (`Accepted.count`), not that
they are the same: a null before the last opcode is accepted, and then the first
`num_queries` positions hold it (`Gapless`).

`parseQuery_eq_some` is the specification of the parser. The counting argument
that follows from it, `Accepted.executed_texts`, is why four text slots suffice.
-/

namespace StateProtocol.V2

open StateProtocol.Clib StateProtocol.Data

/-- The opcodes of the query that are not null. -/
def Request.asked (req : Request) : List UInt8 := req.opcodes.toList.filter (· ≠ 0)

/-- The opcode positions that are run. -/
def Request.executed (req : Request) : List UInt8 := req.opcodes.toList.take req.numQueries.toNat

/-- The opcodes among `ops` that are answered with text. -/
def textOps (ops : List UInt8) : List UInt8 := ops.filter (· ≠ 5)

/-- No null comes before the last opcode. -/
def Request.Gapless (req : Request) : Prop := ∀ q ∈ req.executed, q ≠ 0

instance (req : Request) : Decidable req.Gapless := inferInstanceAs (Decidable (∀ _ ∈ _, _))

/-- What the parser asks of a request. -/
structure Accepted (req : Request) : Prop where
  version : req.version = 2
  count_le : req.numQueries.toNat ≤ 5
  count_pos : 1 ≤ req.numQueries.toNat
  range : ∀ q ∈ req.opcodes.toList, q ≤ 5
  count : req.numQueries.toNat = req.asked.length
  texts : (textOps req.asked).length ≤ 4
  char1 : req.char1 ≠ 0
  char2 : req.char2 ≠ 0

/-- An opcode in range that is not the flag's is the index of a field. -/
theorem textIndex_le {q : UInt8} (hle : q ≤ 5) (h5 : q ≠ 5) : q.toNat ≤ 4 := by
  have hle5 : q.toNat ≤ 5 := UInt8.le_iff_toNat_le.mp hle
  have hne : q.toNat ≠ 5 := fun he => h5 (UInt8.toNat_inj.mp he)
  omega

/-! ## The counting loop -/

theorem countOpcodes_of_range (qs : List UInt8) (actual textField : Nat)
    (h : ∀ q ∈ qs, q ≤ 5) :
    countOpcodes qs actual textField
      = some (actual + (qs.filter (· ≠ 0)).length,
        textField + (textOps (qs.filter (· ≠ 0))).length) := by
  induction qs generalizing actual textField with
  | nil => rfl
  | cons q qs ih =>
    obtain ⟨hq, hqs⟩ := List.forall_mem_cons.mp h
    replace ih := fun a t => ih a t hqs
    unfold countOpcodes
    by_cases h0 : q = 0
    · rw [if_neg (by simpa using h0), ih]
      simp [h0]
    · have hrange : ¬(q < 1 ∨ q > 5) := by
        have h0' : q.toNat ≠ 0 := fun he => h0 (UInt8.toNat_inj.mp he)
        rw [UInt8.le_iff_toNat_le] at hq
        rw [gt_iff_lt, UInt8.lt_iff_toNat_lt, UInt8.lt_iff_toNat_lt]
        simp at hq ⊢
        omega
      rw [if_pos h0, if_neg hrange]
      by_cases h5 : q = 5
      · rw [if_neg (by simpa using h5), ih]
        simp [textOps, h5]
        omega
      · rw [if_pos h5, ih]
        simp [textOps, h0, h5]
        omega

theorem countOpcodes_some (qs : List UInt8) (actual textField : Nat) {r : Nat × Nat}
    (h : countOpcodes qs actual textField = some r) : ∀ q ∈ qs, q ≤ 5 := by
  induction qs generalizing actual textField with
  | nil => simp
  | cons q qs ih =>
    unfold countOpcodes at h
    have hrest : ∀ {a t}, countOpcodes qs a t = some r → q ≤ 5 → ∀ p ∈ q :: qs, p ≤ 5 := by
      intro a t hc hq p hp
      rcases List.mem_cons.mp hp with rfl | hp'
      · exact hq
      · exact ih a t hc p hp'
    by_cases h0 : q = 0
    · rw [if_neg (by simpa using h0)] at h
      exact hrest h (by rw [h0]; decide)
    · rw [if_pos h0] at h
      split at h
      next => simp at h
      next hr =>
        have hq : q ≤ 5 := UInt8.not_lt.mp fun hlt => hr (Or.inr hlt)
        split at h
        · exact hrest h hq
        · exact hrest h hq

/-! ## The parser -/

/-- **Specification of `parse_query`.** -/
theorem parseQuery_eq_some {b : List.Vector UInt8 queryLen} {req : Request} :
    parseQuery b = some req ↔ castRequest b = req ∧ Accepted req := by
  have hle (n : UInt8) : ¬(n < 1 ∨ n > 5) ↔ 1 ≤ n.toNat ∧ n.toNat ≤ 5 := by
    rw [gt_iff_lt, UInt8.lt_iff_toNat_lt, UInt8.lt_iff_toNat_lt]
    simp
    omega
  unfold parseQuery
  dsimp only
  simp only [Option.ite_none_left_eq_some, hle, not_not]
  by_cases hrange : ∀ q ∈ (castRequest b).opcodes.toList, q ≤ 5
  · have hc : countOpcodes (castRequest b).opcodes.toList 0 0
        = some ((castRequest b).asked.length, (textOps (castRequest b).asked).length) := by
      have h := countOpcodes_of_range (castRequest b).opcodes.toList 0 0 hrange
      rwa [Nat.zero_add, Nat.zero_add] at h
    rw [hc]
    simp only [Option.ite_none_left_eq_some, Option.some.injEq, not_not, not_or, gt_iff_lt,
      Nat.not_lt]
    constructor
    · rintro ⟨hv, ⟨h1, h5⟩, hcount, -, htexts, ⟨hc1, hc2⟩, rfl⟩
      exact ⟨rfl, hv, h5, h1, hrange, hcount, htexts, hc1, hc2⟩
    · rintro ⟨rfl, h⟩
      have hcount := h.count
      have hpos := h.count_pos
      exact ⟨h.version, ⟨hpos, h.count_le⟩, hcount, by omega, h.texts, ⟨h.char1, h.char2⟩, rfl⟩
  · -- an opcode out of range stops the count
    have hc : countOpcodes (castRequest b).opcodes.toList 0 0 = none := by
      cases h : countOpcodes (castRequest b).opcodes.toList 0 0 with
      | none => rfl
      | some r => exact absurd (countOpcodes_some _ _ _ h) hrange
    rw [hc]
    constructor
    · rintro ⟨-, -, h⟩
      cases h
    · rintro ⟨rfl, h⟩
      exact absurd h.range hrange

/-! ## Counting -/

namespace Accepted

variable {req : Request}

theorem executed_length (h : Accepted req) : req.executed.length = req.numQueries.toNat := by
  have := h.count_le
  rw [Request.executed, List.length_take, List.Vector.toList_length]
  exact Nat.min_eq_left this

/-- Four text slots are enough for what is run: with five opcodes none is null
and the parser has counted the texts, with fewer there are at most four. -/
theorem executed_texts (h : Accepted req) : (textOps req.executed).length ≤ 4 := by
  have hle := h.count_le
  have hsub : (textOps req.executed).length ≤ req.executed.length := List.length_filter_le _ _
  rw [h.executed_length] at hsub
  rcases Nat.lt_or_ge req.numQueries.toNat 5 with hlt | hge
  · omega
  · have hall : req.executed = req.opcodes.toList := by
      rw [Request.executed, List.take_of_length_le]
      rw [List.Vector.toList_length]
      exact hge
    have hasked : req.asked = req.opcodes.toList := by
      apply List.filter_sublist.eq_of_length
      rw [← Request.asked, ← h.count, List.Vector.toList_length]
      exact Nat.le_antisymm hle hge
    rw [hall, ← hasked]
    exact h.texts

/-- Without a gap the executor runs what was asked. -/
theorem executed_eq_asked (h : Accepted req) (hgap : req.Gapless) : req.executed = req.asked := by
  have hsplit : req.asked = req.executed
      ++ (req.opcodes.toList.drop req.numQueries.toNat).filter (· ≠ 0) := by
    have hfirst : req.executed.filter (· ≠ 0) = req.executed :=
      List.filter_eq_self.mpr fun q hq => by simpa using hgap q hq
    conv_lhs => rw [Request.asked, ← List.take_append_drop req.numQueries.toNat req.opcodes.toList]
    rw [List.filter_append]
    exact congrArg (· ++ _) hfirst
  have hlen := congrArg List.length hsplit
  rw [List.length_append, ← h.count, h.executed_length] at hlen
  have hnil : (req.opcodes.toList.drop req.numQueries.toNat).filter (· ≠ 0) = [] :=
    List.length_eq_zero_iff.mp (by omega)
  rw [hsplit, hnil, List.append_nil]

/-- What is accepted is no shorter than a header. -/
theorem long {m : Bytes} (h : Accepted (castRequest (zeroPad queryLen m))) : ¬m.length < 4 := by
  intro hm
  rw [castRequest_zeroPad] at h
  refine h.char2 ?_
  show m.getD 3 0 = 0
  rw [List.getD_eq_getElem?_getD, List.getElem?_eq_none (by omega)]
  rfl

theorem asked_range (h : Accepted req) : ∀ q ∈ req.asked, 1 ≤ q.toNat ∧ q.toNat ≤ 5 := by
  intro q hq
  obtain ⟨hmem, hne⟩ := List.mem_filter.mp hq
  have hq5 := UInt8.le_iff_toNat_le.mp (h.range q hmem)
  have hq0 : q.toNat ≠ 0 := fun he => (by simpa using hne : q ≠ 0) (UInt8.toNat_inj.mp he)
  simp at hq5
  omega

end Accepted

end StateProtocol.V2
