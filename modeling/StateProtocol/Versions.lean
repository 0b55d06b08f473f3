import StateProtocol.V1.Tcp
import StateProtocol.V2.OnDisk

/-!
# The two versions serve the same text

Both versions take a text from `find_data`. Version 1 removes the newline of the
last field and sends the text whole; version 2 sends what fits into 120 bytes,
newline or not. So on a well-formed database the string of version 2 is the
beginning of the string of version 1, and for the last field it is that less a
newline at its end (`same_text`). They are not the same string when a field is
longer than a payload of version 2 (`not_same_text`).
-/

namespace StateProtocol

open StateProtocol.Clib StateProtocol.Data

/-- The string in a text slot of version 2. -/
def V2.Payload.text (p : V2.Payload) : Bytes := (cstr p.payload.toList).bytes

section

variable {host : Host} {rs : List Record} {r : Record} {char1 char2 opcode : UInt8}

/-- Version 1 sends the field. -/
theorem v1_text (hdb : host.statedb = some (Record.file rs)) (h1 : char1 ≠ 0) (h2 : char2 ≠ 0)
    (hr : Record.lookup rs char1 char2 = some r) (hlow : 1 ≤ opcode.toNat)
    (hhigh : opcode.toNat ≤ 4) (os : FullOffers 19006 2) :
    ∃ (t : V1.Response V1.maxDataLen) (q : Proc),
      V1.processQuery (onDisk host) ⟨4, [1, opcode, char1, char2], false, [], os.offers⟩
        = .ok () q ∧
      q.sent = t.encode ∧ t.status = 1 ∧ t.text = (r.field opcode.toNat).text := by
  have hrange : ¬(opcode < 1 ∨ opcode > 5) := V1.opcode_range.mpr ⟨hlow, by omega⟩
  have h5 : opcode ≠ 5 := V1.text_ne_five hhigh
  have htcp := V1.processQuery_answers hdb (fun he => absurd he h5) os h1 h2
  have hanswer : V1.answerOf (Record.file rs) host.flags ⟨1, opcode, char1, char2⟩
      = (1, (r.field opcode.toNat).text) := by
    rw [V1.answerOf, if_neg (not_not.mpr rfl), if_neg hrange, if_pos h5,
      Record.textField_records rs h1 h2 hhigh, hr]
    rfl
  have hout : V1.outcome (Record.file rs) host.flags ⟨1, opcode, char1, char2⟩ = _ :=
    V1.outcome_eq_answerOf rfl fun _ h4 => Record.records_tidy rs h1 h2 h4
  rw [hout, hanswer] at htcp
  obtain ⟨q, hq, hsent⟩ := htcp
  have hlen := r.field_length_le opcode.toNat
  refine ⟨V1.reply V1.maxDataLen 1 (r.field opcode.toNat).text, q, hq, hsent, rfl, ?_⟩
  refine V1.reply_text (r.field opcode.toNat).noNull ?_
  exact show _ ≤ 19000 by
    have : maxLineLen = 160 := rfl
    omega

/-- Version 2 sends the beginning of what `find_data` returned. -/
theorem v2_text {req : V2.Request} {a : V2.Answer} (h : V2.Accepted req)
    (hr : Record.lookup rs req.char1 req.char2 = some r)
    (ha : V2.collect (V2.tableOf rs host.flags) req.char1 req.char2 req.executed = some a)
    {k : Nat} (hk : k < (V2.textOps req.executed).length) :
    ∃ p, (V2.okResponse a).payloads.toList[k]? = some p ∧
      p.text = (r.token (V2.textOps req.executed)[k].toNat).take 120 := by
  have htexts := V2.collect_record hr host.flags ha
  refine ⟨V2.textPayload (r.token (V2.textOps req.executed)[k].toNat), ?_,
    cstr_zeroPad (r.token_noNull _)⟩
  have hroom : (V2.textOps req.executed).length ≤ 4 := h.executed_texts
  show (padTo V2.Payload.zero 4 (a.texts.map fun t => V2.textPayload t.bytes)).toList[k]? = _
  rw [padTo_toList, htexts, List.map_map, List.take_of_length_le (by simpa using hroom),
    List.getElem?_append_left (by simpa using hk), List.getElem?_map, List.getElem?_eq_getElem hk]
  rfl

/-- A token, cut to 120 bytes and without the newline, is the field, cut. -/
theorem withoutNewline_take (r : Record) (i : Nat) :
    withoutNewline ((r.token i).take 120) = (r.field i).text.take 120 := by
  have hfield : ∀ n, ((r.field i).text.take n).getLast? ≠ some newline := fun n hlast =>
    (r.field i).noNewline (List.mem_of_mem_take (List.mem_of_getLast? hlast))
  unfold Record.token
  by_cases h4 : i = 4
  · rw [if_pos h4]
    rcases Nat.lt_or_ge (r.field i).text.length 120 with hlt | hge
    · -- the newline is within the cut
      rw [List.take_of_length_le (by simp; omega), List.take_of_length_le (by omega)]
      unfold withoutNewline
      simp
    · rw [List.take_append_of_le_length hge, withoutNewline, if_neg (hfield 120)]
  · rw [if_neg h4, withoutNewline, if_neg (hfield 120)]

end

/-- **The same text**: for every well-formed database and state code in it, and
every query of version 2 about it that is accepted. It fails only for a flag
that is missing; and each text that it carries is the first 120 bytes of the text
that version 1 sends for the same opcode, with status 1. The motto is that but for a
newline at its end. -/
theorem same_text (rs : List Record) (host : Host) (hdb : host.statedb = some (Record.file rs))
    (b : List.Vector UInt8 V2.queryLen) (req : V2.Request) (hparse : V2.parseQuery b = some req)
    (hcode : ∃ r ∈ rs, r.code.text = [toupper req.char1, toupper req.char2])
    (os : FullOffers 19006 2) :
    ∃ res p, V2.executeQuery (onDisk host) (some req) Proc.fresh = .ok res p ∧
      (res.status = 1 ↔
        (5 ∈ req.executed → (host.flags (constructGifFilename req.char1 req.char2)).isSome)) ∧
      (res.status = 1 → ∀ (k : Nat) (hk : k < (V2.textOps req.executed).length),
        (V2.textOps req.executed)[k] ≠ 0 →
        ∃ (slot : V2.Payload) (t : V1.Response V1.maxDataLen) (q : Proc),
          res.payloads.toList[k]? = some slot ∧
          V1.processQuery (onDisk host) ⟨4, [1, (V2.textOps req.executed)[k], req.char1, req.char2],
            false, [], os.offers⟩ = .ok () q ∧
          q.sent = t.encode ∧ t.status = 1 ∧
          ((V2.textOps req.executed)[k] ≠ 4 → slot.text = t.text.take 120) ∧
          withoutNewline slot.text = t.text.take 120) := by
  obtain ⟨-, hacc⟩ := V2.parseQuery_eq_some.mp hparse
  obtain ⟨r, hr⟩ : ∃ r, Record.lookup rs req.char1 req.char2 = some r := by
    obtain ⟨r, hmem, hcode⟩ := hcode
    refine Option.isSome_iff_exists.mp (List.find?_isSome.mpr ⟨r, hmem, by simpa using hcode⟩)
  obtain ⟨p, hrun⟩ := V2.executeQuery_onDisk hdb hacc
  refine ⟨_, p, hrun, ?_, ?_⟩
  · rw [← V2.collect_isSome_record hr host.flags req.executed, V2.replyTo]
    cases V2.collect (V2.tableOf rs host.flags) req.char1 req.char2 req.executed with
    | none => exact iff_of_false (show ¬(255 : UInt8) = 1 by decide) Bool.false_ne_true
    | some a => exact iff_of_true rfl rfl
  · rw [V2.replyTo]
    cases ha : V2.collect (V2.tableOf rs host.flags) req.char1 req.char2 req.executed with
    | none => exact fun h => absurd h (show ¬(255 : UInt8) = 1 by decide)
    | some a =>
      intro _ k hk h0
      have hle : (V2.textOps req.executed)[k].toNat ≤ 4 := by
        obtain ⟨hmem, h5⟩ := List.mem_filter.mp (List.getElem_mem hk)
        exact V2.textIndex_le (hacc.range _ (List.mem_of_mem_take hmem)) (by simpa using h5)
      have hpos : 1 ≤ (V2.textOps req.executed)[k].toNat :=
        Nat.pos_of_ne_zero fun he => h0 (UInt8.toNat_inj.mp he)
      obtain ⟨slot, hslot, hsame⟩ := v2_text hacc hr ha hk
      obtain ⟨t, q, hq, hsent, hstatus, htext⟩ := v1_text hdb hacc.char1 hacc.char2 hr hpos hle os
      refine ⟨slot, t, q, hslot, hq, hsent, hstatus, fun h4 => ?_, ?_⟩
      · rw [hsame, htext, r.token_of_ne fun he => h4 (UInt8.toNat_inj.mp he)]
      · rw [hsame, htext, withoutNewline_take]

/-- A query for the name and the motto of New Hampshire. -/
theorem same_text_motto :
    ∃ res p, V2.executeQuery (onDisk Host.pair)
        (some (V2.castRequest ⟨[2, 2, 110, 104, 1, 4, 0, 0, 0], rfl⟩)) Proc.fresh = .ok res p ∧
      res.status = 1 ∧
      (∃ (slot : V2.Payload) (t : V1.Response V1.maxDataLen) (q : Proc),
        res.payloads.toList[0]? = some slot ∧
        V1.processQuery (onDisk Host.pair) ⟨4, [1, 1, 110, 104], false, [],
          (FullOffers.replicate 19005 2).offers⟩ = .ok () q ∧
        q.sent = t.encode ∧ slot.text = t.text.take 120) ∧
      ∃ (slot : V2.Payload) (t : V1.Response V1.maxDataLen) (q : Proc),
        res.payloads.toList[1]? = some slot ∧
        V1.processQuery (onDisk Host.pair) ⟨4, [1, 4, 110, 104], false, [],
          (FullOffers.replicate 19005 2).offers⟩ = .ok () q ∧
        q.sent = t.encode ∧ withoutNewline slot.text = t.text.take 120 := by
  obtain ⟨res, p, hrun, hstatus, htexts⟩ := same_text [delaware, newHampshire] Host.pair rfl
    ⟨[2, 2, 110, 104, 1, 4, 0, 0, 0], rfl⟩
    (V2.castRequest ⟨[2, 2, 110, 104, 1, 4, 0, 0, 0], rfl⟩) (by decide)
    ⟨newHampshire, List.mem_cons_of_mem _ (List.mem_singleton_self _), by decide⟩
    (FullOffers.replicate 19005 2)
  have hone : res.status = 1 := hstatus.mpr fun h5 => absurd h5 (by decide)
  obtain ⟨slot, t, q, hslot, hq, hsent, -, hname, -⟩ := htexts hone 0 (by decide) (by decide)
  obtain ⟨slot', t', q', hslot', hq', hsent', -, -, hmotto⟩ := htexts hone 1 (by decide) (by decide)
  exact ⟨res, p, hrun, hone, ⟨slot, t, q, hslot, hq, hsent, hname (by decide)⟩,
    ⟨slot', t', q', hslot', hq', hsent', hmotto⟩⟩

/-- A record whose name has 121 characters, and a system with it. -/
def longName : Record where
  code := newHampshire.code
  name := ⟨List.replicate 121 120, by decide, by decide, by decide, by decide⟩
  capital := newHampshire.capital
  date := newHampshire.date
  motto := ⟨ascii "x", by decide, by decide, by decide, by decide⟩
  short := by
    simp only [lineOf, List.length_append, List.length_cons, List.length_replicate]
    decide

def longHost : Host := { Host.small with statedb := some (Record.file [longName]) }

/-- That name is sent whole by version 1 and cut by version 2. -/
theorem not_same_text :
    ∃ (rs : List Record) (host : Host) (b : List.Vector UInt8 V2.queryLen) (req : V2.Request)
      (res : V2.Response) (p : Proc) (slot : V2.Payload) (t : V1.Response V1.maxDataLen) (q : Proc),
      host.statedb = some (Record.file rs) ∧ V2.parseQuery b = some req ∧
      (∃ r ∈ rs, r.code.text = [toupper req.char1, toupper req.char2]) ∧
      V2.executeQuery (onDisk host) (some req) Proc.fresh = .ok res p ∧ res.status = 1 ∧
      V2.textOps req.executed = [1] ∧ res.payloads.toList[0]? = some slot ∧
      V1.processQuery (onDisk host) ⟨4, [1, 1, req.char1, req.char2], false, [],
        (FullOffers.replicate 19005 2).offers⟩ = .ok () q ∧
      q.sent = t.encode ∧ t.status = 1 ∧ slot.text ≠ t.text := by
  have hparse : V2.parseQuery ⟨[2, 1, 110, 104, 1, 0, 0, 0, 0], rfl⟩
      = some (V2.castRequest ⟨[2, 1, 110, 104, 1, 0, 0, 0, 0], rfl⟩) := by decide
  have hacc := (V2.parseQuery_eq_some.mp hparse).2
  have hr : Record.lookup [longName] 110 104 = some longName := rfl
  obtain ⟨a, ha⟩ := Option.isSome_iff_exists.mp
    ((V2.collect_isSome_record hr longHost.flags [1]).mpr fun h => absurd h (by decide))
  obtain ⟨p, hrun⟩ : ∃ p, V2.executeQuery (onDisk longHost)
      (some (V2.castRequest ⟨[2, 1, 110, 104, 1, 0, 0, 0, 0], rfl⟩)) Proc.fresh = _ :=
    V2.executeQuery_onDisk rfl hacc
  have hreply : V2.replyTo (V2.tableOf [longName] longHost.flags)
      (some (V2.castRequest ⟨[2, 1, 110, 104, 1, 0, 0, 0, 0], rfl⟩)) = V2.okResponse a :=
    V2.replyTo_of_some ha
  rw [hreply] at hrun
  obtain ⟨slot, hslot, hcut⟩ := v2_text (k := 0) hacc hr ha (by decide)
  obtain ⟨t, q, hq, hsent, hstatus, htext⟩ : ∃ (t : V1.Response V1.maxDataLen) (q : Proc),
      V1.processQuery (onDisk longHost) ⟨4, [1, 1, 110, 104], false, [],
        (FullOffers.replicate 19005 2).offers⟩ = .ok () q ∧
      q.sent = t.encode ∧ t.status = 1 ∧ t.text = (longName.field 1).text :=
    v1_text rfl (by decide) (by decide) hr (by decide) (by decide) _
  refine ⟨[longName], longHost, _, _, _, p, slot, t, q, rfl, hparse,
    ⟨longName, List.mem_singleton_self _, by decide⟩, hrun, rfl, by decide, hslot, hq, hsent,
    hstatus, ?_⟩
  rw [hcut, htext]
  exact fun h => absurd (congrArg List.length h) (by decide)

end StateProtocol
