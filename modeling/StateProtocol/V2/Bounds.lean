import StateProtocol.Clib.Faultless
import StateProtocol.V2.Tcp
import StateProtocol.V2.Udp

/-!
# The array accesses of version 2

Nothing that a client sends, and nothing that is stored, takes the servers out
of their arrays. The reader stops at the ninth byte; the copies into a slot are
cut to the slot and to their source; and the executor counts its text slots
against the parser's bound (`executeLoop_faultless`): the opcodes still to run
and the slots already filled make up no more than four texts, nulls included.
-/

namespace StateProtocol.V2

open StateProtocol.Clib StateProtocol.Data

/-- The lookups of the library come back, or end the process in an orderly way. -/
structure Orderly {σ : Type} (lib : DataUtils σ) : Prop where
  findData : ∀ char1 char2 index, Faultless (lib.findData char1 char2 index)
  loadGif : ∀ char1 char2, Faultless (lib.loadGif char1 char2)
  saveGif : ∀ char1 char2 buffer, Faultless (lib.saveGif char1 char2 buffer)

theorem ofLookup_orderly {σ : Type} (db : Lookup) : Orderly (ofLookup db : DataUtils σ) where
  findData _ _ _ := Faultless.pure _
  loadGif _ _ := Faultless.pure _
  saveGif _ _ _ := Faultless.pure _

section Executor

variable {σ : Type} {lib : DataUtils σ} {req : Request}

theorem messageResponse_faultless {status : UInt8} {error : Bytes}
    (h : error.length ≤ maxDataLen) : Faultless (messageResponse status error : C σ Response) :=
  .of_ok fun s => ⟨_, s, messageResponse_run status h s⟩

theorem errorResponse_faultless : Faultless (errorResponse : C σ Response) :=
  messageResponse_faultless invalidQueryMsg_length

theorem handleOpp_faultless (hlib : Orderly lib) (code char1 char2 : UInt8) :
    Faultless (handleOpp lib code char1 char2) := by
  refine (hlib.findData char1 char2 code.toNat).bind fun data => ?_
  cases data with
  | none => exact .pure _
  | some data =>
    have hsrc : 0 + min maxDataLen data.strlen ≤ data.bytes.length :=
      (Nat.zero_add _).trans_le (Nat.min_le_right _ _)
    have hdst : 0 + min maxDataLen data.strlen ≤ maxDataLen :=
      (Nat.zero_add _).trans_le (Nat.min_le_left _ _)
    exact (Faultless.copyLoop hsrc hdst).bind fun payload => .pure _

theorem handleGifOpp_faultless (hlib : Orderly lib) (char1 char2 : UInt8) :
    Faultless (handleGifOpp lib char1 char2) := by
  refine (hlib.loadGif char1 char2).bind fun data => ?_
  cases data with
  | none => exact .pure _
  | some data =>
    have hsrc : 0 + min maxGifLen data.length ≤ data.length :=
      (Nat.zero_add _).trans_le (Nat.min_le_right _ _)
    have hdst : 0 + min maxGifLen data.length ≤ maxGifLen :=
      (Nat.zero_add _).trans_le (Nat.min_le_left _ _)
    exact (Faultless.copyLoop hsrc hdst).bind fun payload => .pure _

/-- From any position on there is an opcode for every step that is left, and a
slot for every text among them. -/
theorem executeLoop_faultless (hlib : Orderly lib) :
    ∀ (left i : Nat) (st : Progress), i + left ≤ 5 →
      st.currPayload + (textOps ((req.opcodes.toList.drop i).take left)).length ≤ 4 →
      Faultless (executeLoop lib req left i st) := by
  intro left
  induction left with
  | zero =>
    intro i st _ _
    exact .pure _
  | succ left ih =>
    intro i st hi htexts
    have hlen : i < req.opcodes.toList.length := by
      rw [List.Vector.toList_length]
      exact show i < 5 by omega
    have hload : ∀ s : σ, load req.opcodes i s = .ok req.opcodes.toList[i] s :=
      load_of_lt _ hlen
    rw [List.drop_eq_getElem_cons hlen, List.take_succ_cons] at htexts
    intro s t
    rw [executeLoop, bind_of_ok (hload s)]
    revert s t
    generalize req.opcodes.toList[i] = q at htexts
    by_cases h5 : q = 5
    · rw [if_pos h5]
      refine (handleGifOpp_faultless hlib _ _).bind fun gif => ?_
      split
      · exact .pure _
      · refine ih (i + 1) _ (by omega) ?_
        simpa [textOps, h5] using htexts
    · rw [if_neg h5]
      have hcount : (textOps (q :: (req.opcodes.toList.drop (i + 1)).take left)).length
          = (textOps ((req.opcodes.toList.drop (i + 1)).take left)).length + 1 := by
        simp [textOps, h5]
      rw [hcount] at htexts
      refine (handleOpp_faultless hlib _ _ _).bind fun attempt => ?_
      split
      · exact .pure _
      · have hslot : st.currPayload < 4 := by omega
        refine (Faultless.store st.payloads hslot attempt).bind fun payloads => ?_
        exact ih (i + 1) _ (by omega) (show st.currPayload + 1 + _ ≤ 4 by omega)

theorem executeQuery_faultless (hlib : Orderly lib) (b : List.Vector UInt8 queryLen) :
    Faultless (executeQuery lib (parseQuery b)) := by
  cases hparse : parseQuery b with
  | none => exact errorResponse_faultless
  | some req =>
    obtain ⟨-, hacc⟩ := parseQuery_eq_some.mp hparse
    have hcount := hacc.count_le
    have htexts := hacc.executed_texts
    rw [Request.executed] at htexts
    have hloop : Faultless (executeLoop lib req req.numQueries.toNat 0 Progress.init) :=
      executeLoop_faultless hlib req.numQueries.toNat 0 Progress.init (by omega)
        ((Nat.zero_add _).trans_le htexts)
    refine hloop.bind fun st => ?_
    cases st with
    | none => exact errorResponse_faultless
    | some st => exact .pure _

theorem printResponse_faultless (hlib : Orderly lib) (res : Response) :
    Faultless (printResponse lib res) := by
  unfold printResponse
  split
  · exact .pure ()
  · exact hlib.saveGif 116 116 _

end Executor

/-! ## The servers -/

section Servers

variable {lib : DataUtils Proc}

/-- The loop stays inside the buffer when it has room for what is left. -/
theorem readLoop_faultless (left i : Nat) (queryBuff : List.Vector UInt8 queryLen)
    (h : i + left ≤ queryLen) : Faultless (readLoop left i queryBuff) := by
  induction left generalizing i queryBuff with
  | zero => exact .pure queryBuff
  | succ left ih =>
    refine (Faultless.recvInto queryBuff (by omega)).bind fun received => ?_
    cases received with
    | none => exact .pure queryBuff
    | some queryBuff => exact ih (i + 1) queryBuff (by omega)

theorem writeOut_faultless (res : Response) : Faultless (writeOut res) := by
  rw [writeOut_eq]
  exact .sendBlocks res.blocks

theorem processQuery_faultless (hlib : Orderly lib) : Faultless (processQuery lib) := by
  refine (Faultless.recvInto _ (by decide)).bind fun first => ?_
  refine (Faultless.recvInto _ (by decide)).bind fun second => ?_
  cases second with
  | none => exact .pure ()
  | some queryBuff =>
    refine (Faultless.load queryBuff (by decide)).bind fun numQueries => ?_
    split
    · exact errorResponse_faultless.bind fun error => writeOut_faultless error
    next hsmall =>
      have hle : numQueries.toNat ≤ 5 := UInt8.le_iff_toNat_le.mp (UInt8.not_lt.mp hsmall)
      have hroom : 2 + (2 + numQueries.toNat) ≤ queryLen := show _ ≤ 9 by omega
      refine (readLoop_faultless _ 2 queryBuff hroom).bind fun queryBuff => ?_
      refine (executeQuery_faultless hlib queryBuff).bind fun res => ?_
      exact (printResponse_faultless hlib res).bind fun _ => writeOut_faultless res

theorem payloadsSize_le (ps : List Payload) (size : Nat) :
    payloadsSize ps size ≤ size + (ps.flatMap Payload.encode).length := by
  induction ps generalizing size with
  | nil => exact Nat.le_refl size
  | cons p ps ih =>
    rw [payloadsSize, List.flatMap_cons, List.length_append, Payload.encode_length]
    split
    · exact (ih size).trans (by omega)
    · exact (ih (size + 124)).trans (by omega)

/-- The computed size is never more than the structure. -/
theorem calcPacketSize_le (res : Response) : calcPacketSize res ≤ res.encode.length := by
  have htexts : payloadsSize res.payloads.toList 4 ≤ _ := payloadsSize_le res.payloads.toList 4
  rw [calcPacketSize, Response.encode, List.length_append, List.length_append,
    Response.header_length, GifPayload.encode_length]
  dsimp only [headerLen]
  split <;> omega

theorem serve_faultless {σ : Type} {lib : DataUtils σ} (hlib : Orderly lib) (m : Bytes) :
    Faultless (serve lib m) := by
  unfold serve
  dsimp only [recvfrom]
  split
  · exact errorResponse_faultless.bind fun resp => .sendto (calcPacketSize_le resp)
  · refine (executeQuery_faultless hlib _).bind fun res => ?_
    split
    · refine Faultless.bind (messageResponse_faultless tooLargeMsg_length) fun error => ?_
      refine (Faultless.sendto (calcPacketSize_le error)).bind fun sent => ?_
      exact (printResponse_faultless hlib error).bind fun _ => .pure sent
    · refine (printResponse_faultless hlib res).bind fun _ => ?_
      exact .sendto (calcPacketSize_le res)

end Servers

/-- **Every access is in range**, over any stream to the one server and any
datagram to the other. -/
theorem accesses_in_range (db : Lookup) :
    (∀ p t, processQuery (ofLookup db) p ≠ .error .fault t) ∧
    ∀ {σ : Type} (m : Bytes) (s t : σ), serve (ofLookup db) m s ≠ .error .fault t :=
  ⟨processQuery_faultless (ofLookup_orderly db),
    fun m => serve_faultless (ofLookup_orderly db) m⟩

end StateProtocol.V2
