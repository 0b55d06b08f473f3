import StateProtocol.V2.Execute

/-!
# What was asked and what is answered

The parser counts the opcodes that are not null, the executor runs the first
`num_queries` positions. `AnswersExactly` compares the two on one request: the
response carries what the counted opcodes select, in order, and no other lookup
is made.

That holds exactly for the requests without a gap (`answersExactly_iff`). A null
before the last opcode takes the place of one that was counted, and
`find_data`, whose `index` is documented to be a valid opcode, is called with
index 0: it answers with the state code itself.
-/

namespace StateProtocol.V2

open StateProtocol.Clib StateProtocol.Data

/-- The response carries what the opcodes `ops` select: a text slot for each
text opcode in order, the flag if it is asked for, and their number. -/
structure Carries (db : Lookup) (char1 char2 : UInt8) (ops : List UInt8) (res : Response) :
    Prop where
  version : res.version = 2
  status : res.status = 1
  count : res.numResponses.toNat = (textOps ops).length + if 5 ∈ ops then 1 else 0
  texts : ∃ fields : List CString,
    fields.map some = (textOps ops).map (fun q => db.text char1 char2 q.toNat) ∧
    res.payloads = slots (fields.map fun t => textPayload t.bytes)
  gif : res.gif = gifSlot (if 5 ∈ ops then db.gif char1 char2 else none)

/-- The run of the executor answers what was asked, and looks nothing else up. -/
def AnswersExactly (db : Lookup) (req : Request) : Prop :=
  ∃ res, executeQuery (traced db) (some req) [] = .ok res (req.asked.map callOf) ∧
    Carries db req.char1 req.char2 req.asked res

section

variable {db : Lookup} {char1 char2 : UInt8} {req : Request}

/-- The response made of an answer carries it. -/
theorem okResponse_carries {ops : List UInt8} {a : Answer}
    (h : collect db char1 char2 ops = some a) (htexts : (textOps ops).length ≤ 4) :
    Carries db char1 char2 ops (okResponse a) where
  version := rfl
  status := rfl
  count := by
    show (UInt8.ofNat (a.texts.length + a.gif.toList.length)).toNat = _
    rw [collect_texts_length h, collect_gif_length h, UInt8.toNat_ofNat_of_lt']
    split <;> exact show _ < 256 by omega
  texts := ⟨a.texts, collect_texts h, rfl⟩
  gif := congrArg gifSlot (collect_gif h)

/-- A null among the executed positions is looked up, as index 0. -/
theorem executed_null (h : Accepted req)
    (hfound : ∀ q : UInt8, 1 ≤ q → q ≤ 5 → Found db req.char1 req.char2 q) (hgap : ¬req.Gapless) :
    Call.text 0 ∈ callsFor db req.char1 req.char2 req.executed := by
  obtain ⟨q, hq, h0⟩ : ∃ q ∈ req.executed, q = 0 := by
    unfold Request.Gapless at hgap
    push Not at hgap
    exact hgap
  subst h0
  refine callOf_mem_callsFor hq fun p hp hp0 => hfound p ?_ ?_
  · exact UInt8.le_iff_toNat_le.mpr (Nat.pos_of_ne_zero fun he => hp0 (UInt8.toNat_inj.mp he))
  · exact h.range p (List.mem_of_mem_take hp)

/-- The parser counts no null. -/
theorem asked_calls (h : Accepted req) : Call.text 0 ∉ req.asked.map callOf := by
  intro hmem
  obtain ⟨q, hq, hcall⟩ := List.mem_map.mp hmem
  have hpos := (h.asked_range q hq).1
  unfold callOf at hcall
  split at hcall
  next => cases hcall
  next =>
    injection hcall with h0
    omega

/-- With a gap the calls are not those of the opcodes asked for. -/
theorem not_answersExactly (h : Accepted req)
    (hfound : ∀ q : UInt8, 1 ≤ q → q ≤ 5 → Found db req.char1 req.char2 q) (hgap : ¬req.Gapless) :
    ¬AnswersExactly db req := by
  rintro ⟨res, hrun, -⟩
  rw [executeQuery_traced db h] at hrun
  injection hrun with _ hcalls
  refine asked_calls h ?_
  rw [← hcalls]
  exact executed_null h hfound hgap

end

/-- **The executor answers what was asked exactly when there is no gap.** -/
theorem answersExactly_iff {b : List.Vector UInt8 queryLen} {db : Lookup} {req : Request}
    (hparse : parseQuery b = some req)
    (hfound : ∀ q : UInt8, 1 ≤ q → q ≤ 5 → Found db req.char1 req.char2 q) :
    AnswersExactly db req ↔ req.Gapless := by
  obtain ⟨-, hacc⟩ := parseQuery_eq_some.mp hparse
  constructor
  · intro h
    by_contra hgap
    exact not_answersExactly hacc hfound hgap h
  · intro hgap
    have heq := hacc.executed_eq_asked hgap
    have hall : ∀ q ∈ req.asked, Found db req.char1 req.char2 q := by
      intro q hq
      have hrange := hacc.asked_range q hq
      exact hfound q (UInt8.le_iff_toNat_le.mpr hrange.1) (UInt8.le_iff_toNat_le.mpr hrange.2)
    obtain ⟨a, ha⟩ := Option.isSome_iff_exists.mp ((collect_isSome req.asked).mpr hall)
    refine ⟨okResponse a, ?_, okResponse_carries ha hacc.texts⟩
    rw [← heq] at ha
    rw [executeQuery_traced db hacc, replyTo_of_some ha, heq, callsFor_of_found hall,
      List.nil_append]

/-- A query for the name of New Hampshire. -/
theorem answersExactly_name :
    AnswersExactly (Lookup.const (cstr (ascii "New Hampshire")) [])
      (castRequest ⟨[2, 1, 110, 104, 1, 0, 0, 0, 0], rfl⟩) ↔
    (castRequest ⟨[2, 1, 110, 104, 1, 0, 0, 0, 0], rfl⟩).Gapless :=
  answersExactly_iff (b := ⟨[2, 1, 110, 104, 1, 0, 0, 0, 0], rfl⟩) (by decide)
    fun q _ _ => const_found _ _ _ _ q

/-- The same query with a null before its opcode is accepted, although every
lookup of a valid opcode succeeds, and not answered. -/
theorem gap_not_answered :
    ∃ (b : List.Vector UInt8 queryLen) (db : Lookup) (req : Request),
      parseQuery b = some req ∧
      (∀ q : UInt8, 1 ≤ q → q ≤ 5 → Found db req.char1 req.char2 q) ∧
      ¬AnswersExactly db req := by
  have hparse : parseQuery ⟨[2, 1, 110, 104, 0, 1, 0, 0, 0], rfl⟩
      = some (castRequest ⟨[2, 1, 110, 104, 0, 1, 0, 0, 0], rfl⟩) := by decide
  have hfound := fun (q : UInt8) (_ : 1 ≤ q) (_ : q ≤ 5) =>
    const_found (cstr (ascii "New Hampshire")) [] 110 104 q
  refine ⟨_, _, _, hparse, hfound, ?_⟩
  exact not_answersExactly (parseQuery_eq_some.mp hparse).2 hfound (by decide)

end StateProtocol.V2
