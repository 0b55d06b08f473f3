import StateProtocol.V2.Parse

/-!
# What `execute_query` answers

An `Answer` is the content of a successful response: the strings of the text
opcodes in order, and the flag if one was asked for. `collect` looks up an
answer opcode by opcode and is all-or-nothing; `okResponse` puts it into the
structure.

A library `Serves` a table when the calls that are made return the table's
entries, whatever they do to the process besides (`note`). Against such a
library `executeQuery_serves` says what the executor returns and which calls it
makes: the answer for the executed opcodes or the error response, and the calls
up to the first lookup that fails. The loop itself is `executeLoop_serves`, by
induction on the opcodes with the filled slots as the invariant.
-/

namespace StateProtocol.V2

open StateProtocol.Clib StateProtocol.Data

/-! ## Answers -/

structure Answer where
  texts : List CString
  gif : Option Bytes

/-- The opcodes looked up one after the other, all or nothing. -/
def collect (db : Lookup) (char1 char2 : UInt8) : List UInt8 → Option Answer
  | [] => some ⟨[], none⟩
  | q :: qs =>
    if q = 5 then
      match db.gif char1 char2 with
      | none => none
      | some g => (collect db char1 char2 qs).map fun a => { a with gif := some g }
    else
      match db.text char1 char2 q.toNat with
      | none => none
      | some t => (collect db char1 char2 qs).map fun a => { a with texts := t :: a.texts }

/-- The lookup behind an opcode. -/
def callOf (q : UInt8) : Call := if q = 5 then .gif else .text q.toNat

/-- Does the table have what the opcode asks for? -/
def Found (db : Lookup) (char1 char2 : UInt8) (q : UInt8) : Bool :=
  if q = 5 then (db.gif char1 char2).isSome else (db.text char1 char2 q.toNat).isSome

/-- The calls made for a list of opcodes: up to the first that fails. -/
def callsFor (db : Lookup) (char1 char2 : UInt8) : List UInt8 → List Call
  | [] => []
  | q :: qs =>
    callOf q :: if Found db char1 char2 q then callsFor db char1 char2 qs else []

section Collect

variable {db : Lookup} {char1 char2 : UInt8}

/-- There is an answer exactly when every lookup succeeds. -/
theorem collect_isSome (qs : List UInt8) :
    (collect db char1 char2 qs).isSome ↔ ∀ q ∈ qs, Found db char1 char2 q := by
  induction qs with
  | nil => simp [collect]
  | cons q qs ih =>
    rw [List.forall_mem_cons, ← ih, collect, Found]
    split
    · cases db.gif char1 char2 <;> simp
    · cases db.text char1 char2 q.toNat <;> simp

/-- The strings of an answer are those the text opcodes select, in order. -/
theorem collect_texts {qs : List UInt8} {a : Answer} (h : collect db char1 char2 qs = some a) :
    a.texts.map some = (textOps qs).map fun q => db.text char1 char2 q.toNat := by
  induction qs generalizing a with
  | nil =>
    obtain rfl := Option.some.inj h
    rfl
  | cons q qs ih =>
    rw [collect] at h
    split at h
    next h5 =>
      split at h
      next => cases h
      next g _ =>
        obtain ⟨a', ha', rfl⟩ := Option.map_eq_some_iff.mp h
        rw [textOps, List.filter_cons_of_neg (by simpa using h5)]
        show a'.texts.map some = _
        exact ih ha'
    next h5 =>
      split at h
      next => cases h
      next t ht =>
        obtain ⟨a', ha', rfl⟩ := Option.map_eq_some_iff.mp h
        rw [textOps, List.filter_cons_of_pos (by simpa using h5), List.map_cons, List.map_cons, ht]
        exact congrArg (some t :: ·) (ih ha')

/-- An answer has the flag exactly when it was asked for. -/
theorem collect_gif {qs : List UInt8} {a : Answer} (h : collect db char1 char2 qs = some a) :
    a.gif = if 5 ∈ qs then db.gif char1 char2 else none := by
  induction qs generalizing a with
  | nil =>
    obtain rfl := Option.some.inj h
    rfl
  | cons q qs ih =>
    rw [collect] at h
    split at h
    next h5 =>
      split at h
      next => cases h
      next g hg =>
        obtain ⟨a', ha', rfl⟩ := Option.map_eq_some_iff.mp h
        rw [if_pos (h5 ▸ List.mem_cons_self ..), hg]
    next h5 =>
      split at h
      next => cases h
      next t _ =>
        obtain ⟨a', ha', rfl⟩ := Option.map_eq_some_iff.mp h
        have hmem : 5 ∈ q :: qs ↔ 5 ∈ qs := by
          rw [List.mem_cons]
          exact or_iff_right fun he => h5 he.symm
        rw [if_congr hmem rfl rfl]
        show a'.gif = _
        exact ih ha'

theorem collect_texts_length {qs : List UInt8} {a : Answer}
    (h : collect db char1 char2 qs = some a) : a.texts.length = (textOps qs).length := by
  simpa using congrArg List.length (collect_texts h)

/-- The flag is one item, however often it is asked for. -/
theorem collect_gif_length {qs : List UInt8} {a : Answer}
    (h : collect db char1 char2 qs = some a) : a.gif.toList.length = if 5 ∈ qs then 1 else 0 := by
  rw [collect_gif h]
  split
  next h5 =>
    have hfound := (collect_isSome qs).mp (Option.isSome_of_eq_some h) 5 h5
    rw [Found, if_pos rfl] at hfound
    obtain ⟨g, hg⟩ := Option.isSome_iff_exists.mp hfound
    rw [hg]
    rfl
  next => rfl

/-- When nothing fails, every opcode is looked up. -/
theorem callsFor_of_found {qs : List UInt8} (h : ∀ q ∈ qs, Found db char1 char2 q) :
    callsFor db char1 char2 qs = qs.map callOf := by
  induction qs with
  | nil => rfl
  | cons q qs ih =>
    obtain ⟨hq, hqs⟩ := List.forall_mem_cons.mp h
    rw [callsFor, if_pos hq, List.map_cons, ih hqs]

/-- An opcode whose predecessors succeed is looked up. -/
theorem callOf_mem_callsFor {q : UInt8} {qs : List UInt8} (hmem : q ∈ qs)
    (hfound : ∀ p ∈ qs, p ≠ q → Found db char1 char2 p) :
    callOf q ∈ callsFor db char1 char2 qs := by
  induction qs with
  | nil => cases hmem
  | cons p qs ih =>
    rw [callsFor]
    by_cases hp : p = q
    · exact hp ▸ List.mem_cons_self ..
    · have hq : q ∈ qs := (List.mem_cons.mp hmem).resolve_left fun he => hp he.symm
      rw [if_pos (hfound p (List.mem_cons_self ..) hp)]
      exact List.mem_cons_of_mem _ (ih hq fun r hr => hfound r (List.mem_cons_of_mem _ hr))

/-- Nothing is looked up but what the opcodes stand for. -/
theorem callsFor_subset {qs : List UInt8} {call : Call}
    (h : call ∈ callsFor db char1 char2 qs) : ∃ q ∈ qs, callOf q = call := by
  induction qs with
  | nil => cases h
  | cons q qs ih =>
    rw [callsFor] at h
    rcases List.mem_cons.mp h with rfl | h
    · exact ⟨q, List.mem_cons_self .., rfl⟩
    · split at h
      · obtain ⟨r, hr, hcall⟩ := ih h
        exact ⟨r, List.mem_cons_of_mem _ hr, hcall⟩
      · cases h

/-- The table of the examples: it has everything. -/
theorem const_found (text : CString) (gif : Bytes) (char1 char2 q : UInt8) :
    Found (Lookup.const text gif) char1 char2 q := by
  unfold Found
  split <;> rfl

end Collect

/-! ## Answers as structures -/

/-- A text slot that holds `data`. -/
def textPayload (data : Bytes) : Payload := ⟨htonl 120, zeroPad maxDataLen data⟩

/-- The flag slot that holds `data`. -/
def gifPayload (data : Bytes) : GifPayload := ⟨htonl 19000, zeroPad maxGifLen data⟩

/-- The flag slot of an answer. -/
def gifSlot : Option Bytes → GifPayload
  | none => GifPayload.zero
  | some data => gifPayload data

/-- The four text slots, filled from the first. -/
def slots (ps : List Payload) : List.Vector Payload 4 := padTo Payload.zero 4 ps

/-- The response that carries an answer. -/
def okResponse (a : Answer) : Response where
  version := 2
  status := 1
  numResponses := UInt8.ofNat (a.texts.length + a.gif.toList.length)
  reserved := 0
  payloads := slots (a.texts.map fun t => textPayload t.bytes)
  gif := gifSlot a.gif

/-- The response that carries a message. -/
def messageReply (status : UInt8) (error : Bytes) : Response where
  version := 2
  status := status
  numResponses := 1
  reserved := 0
  payloads := slots [textPayload error]
  gif := GifPayload.zero

/-- The reply to an invalid query. -/
def errorReply : Response := messageReply 255 invalidQueryMsg

/-- The reply in place of one that is too large for a datagram. -/
def tooLargeReply : Response := messageReply 254 tooLargeMsg

/-! ## The parts of the executor -/

section Parts

variable {σ : Type} {lib : DataUtils σ} {s t : σ} {char1 char2 : UInt8}

theorem messageResponse_run (status : UInt8) {error : Bytes} (h : error.length ≤ maxDataLen)
    (s : σ) : messageResponse status error s = .ok (messageReply status error) s := by
  rw [messageResponse, bind_of_ok (copyLoop_zeroPad (Nat.le_refl _) h s), List.take_length,
    bind_of_ok (store_of_lt _ (by decide) _ s)]
  rfl

theorem invalidQueryMsg_length : invalidQueryMsg.length ≤ maxDataLen := by decide

theorem tooLargeMsg_length : tooLargeMsg.length ≤ maxDataLen := by decide

@[simp] theorem errorResponse_run (s : σ) : errorResponse s = .ok errorReply s :=
  messageResponse_run 255 invalidQueryMsg_length s

@[simp] theorem udpLenResponse_run (s : σ) : udpLenResponse s = .ok tooLargeReply s :=
  messageResponse_run 254 tooLargeMsg_length s

theorem zeroPad_take (n : Nat) (bs : Bytes) :
    zeroPad n (bs.take (min n bs.length)) = zeroPad n bs := by
  apply List.Vector.toList_injective
  rw [zeroPad_toList, zeroPad_toList, List.take_take, List.length_take]
  rcases Nat.le_total n bs.length with h | h
  · rw [Nat.min_eq_left h, Nat.min_self, Nat.min_eq_left h, Nat.sub_self, Nat.sub_eq_zero_of_le h]
  · rw [Nat.min_eq_right h, Nat.min_eq_right h, Nat.min_self, List.take_length,
      List.take_of_length_le h]

theorem handleOpp_run {code : UInt8} {r : Option CString}
    (h : lib.findData char1 char2 code.toNat s = .ok r t) :
    handleOpp lib code char1 char2 s
      = .ok ((r.map fun t => textPayload t.bytes).getD Payload.zero) t := by
  rw [handleOpp, bind_of_ok h]
  cases r with
  | none => rfl
  | some data =>
    dsimp only [CString.strlen]
    rw [bind_of_ok (copyLoop_zeroPad (Nat.min_le_right _ _) (Nat.min_le_left _ _) t), zeroPad_take]
    rfl

theorem handleGifOpp_run {r : Option Bytes} (h : lib.loadGif char1 char2 s = .ok r t) :
    handleGifOpp lib char1 char2 s = .ok (gifSlot r) t := by
  rw [handleGifOpp, bind_of_ok h]
  cases r with
  | none => rfl
  | some data =>
    dsimp only
    rw [bind_of_ok (copyLoop_zeroPad (Nat.min_le_right _ _) (Nat.min_le_left _ _) t), zeroPad_take]
    rfl

/-- The length field tells a filled slot from an empty one. -/
theorem textPayload_len (data : Bytes) : ¬(textPayload data).len < 1 := by
  show ¬htonl 120 < 1
  decide

theorem gifPayload_len (data : Bytes) : ¬(gifPayload data).len < 1 := by
  show ¬htonl 19000 < 1
  decide

end Parts

/-! ## The loop -/

/-- The calls of `lib` about the state code that are `asked` for return the
entries of `db`, and do `note` to the process, as long as it is `ready` for
them: `ready n s` says that `s` can make `n` calls. -/
structure Serves {σ : Type} (lib : DataUtils σ) (db : Lookup) (char1 char2 : UInt8)
    (asked : Call → Prop) (note : Call → σ → σ) (ready : Nat → σ → Prop) : Prop where
  text : ∀ {n s} index, asked (.text index) → ready (n + 1) s →
    lib.findData char1 char2 index s = .ok (db.text char1 char2 index) (note (.text index) s)
  gif : ∀ {n s}, asked .gif → ready (n + 1) s →
    lib.loadGif char1 char2 s = .ok (db.gif char1 char2) (note .gif s)
  still : ∀ {n s} call, asked call → ready (n + 1) s → ready n (note call s)

theorem ofLookup_serves {σ : Type} (db : Lookup) (char1 char2 : UInt8) :
    Serves (ofLookup db : DataUtils σ) db char1 char2 (fun _ => True) (fun _ s => s)
      fun _ _ => True where
  text _ _ _ := rfl
  gif _ _ := rfl
  still _ _ _ := trivial

theorem traced_serves (db : Lookup) (char1 char2 : UInt8) :
    Serves (traced db) db char1 char2 (fun _ => True) (fun call calls => calls ++ [call])
      fun _ _ => True where
  text _ _ _ := rfl
  gif _ _ := rfl
  still _ _ _ := trivial

/-- The loop's variables when `ps` are the strings so far and `g` the flag. -/
def Progress.holding (ps : List Payload) (g : Option Bytes) : Progress :=
  ⟨slots ps, gifSlot g, g.toList.length, ps.length⟩

section Loop

variable {σ : Type} {lib : DataUtils σ} {db : Lookup} {asked : Call → Prop}
  {note : Call → σ → σ} {ready : Nat → σ → Prop} {req : Request}

/-- The process after a list of calls. -/
def noteAll (note : Call → σ → σ) (calls : List Call) (s : σ) : σ :=
  calls.foldl (fun s call => note call s) s

/-- The loop from position `i` on: it collects the answer of the positions left
on top of what it holds, and stores nothing outside of the four slots. -/
theorem executeLoop_serves (hlib : Serves lib db req.char1 req.char2 asked note ready) :
    ∀ (left i : Nat) (ps : List Payload) (g : Option Bytes) (s : σ), i + left ≤ 5 →
      ready left s →
      (∀ call ∈ callsFor db req.char1 req.char2 ((req.opcodes.toList.drop i).take left),
        asked call) →
      ps.length + (textOps ((req.opcodes.toList.drop i).take left)).length ≤ 4 →
      executeLoop lib req left i (Progress.holding ps g) s
        = .ok ((collect db req.char1 req.char2 ((req.opcodes.toList.drop i).take left)).map
            fun a => Progress.holding
              (ps ++ a.texts.map fun t => textPayload t.bytes) (a.gif.or g))
          (noteAll note
            (callsFor db req.char1 req.char2 ((req.opcodes.toList.drop i).take left)) s) := by
  intro left
  induction left with
  | zero =>
    intro i ps g s _ _ _ _
    rw [executeLoop, List.take_zero, collect, callsFor]
    simp [noteAll]
  | succ left ih =>
    intro i ps g s hi hready hasked hps
    have hlen : i < req.opcodes.toList.length := by
      rw [List.Vector.toList_length]
      exact show i < 5 by omega
    rw [List.drop_eq_getElem_cons hlen, List.take_succ_cons] at hasked hps ⊢
    rw [executeLoop, bind_of_ok (load_of_lt _ hlen s)]
    have hrest := ih (i + 1)
    generalize req.opcodes.toList[i] = q at hasked hps ⊢
    generalize (req.opcodes.toList.drop (i + 1)).take left = qs at hasked hps hrest ⊢
    rw [callsFor, List.forall_mem_cons] at hasked
    obtain ⟨hcall, htail⟩ := hasked
    by_cases hq : q = 5
    · -- the flag: one slot, however often it is asked for
      have htexts : (textOps (q :: qs)).length = (textOps qs).length := by simp [textOps, hq]
      rw [Found, if_pos hq] at htail
      rw [callOf, if_pos hq] at hcall
      rw [if_pos hq, bind_of_ok (handleGifOpp_run (hlib.gif hcall hready)), collect, if_pos hq,
        callsFor, Found, if_pos hq, callOf, if_pos hq]
      cases hgif : db.gif req.char1 req.char2 with
      | none => rfl
      | some data =>
        rw [hgif] at htail
        rw [gifSlot, if_neg (gifPayload_len data)]
        refine (hrest ps (some data) (note .gif s) (by omega) (hlib.still .gif hcall hready) htail
          (by omega)).trans ?_
        congr 1
        rw [Option.map_map]
        refine Option.map_congr fun a ha => ?_
        have hsame : a.gif.or (some data) = some data := by
          rw [collect_gif ha, hgif]
          split <;> rfl
        rw [hsame]
        rfl
    · -- a text: the next slot
      have htexts : (textOps (q :: qs)).length = (textOps qs).length + 1 := by simp [textOps, hq]
      rw [Found, if_neg hq] at htail
      rw [callOf, if_neg hq] at hcall
      rw [if_neg hq, bind_of_ok (handleOpp_run (hlib.text q.toNat hcall hready)), collect,
        if_neg hq, callsFor, Found, if_neg hq, callOf, if_neg hq]
      cases htext : db.text req.char1 req.char2 q.toNat with
      | none => rfl
      | some data =>
        rw [htext] at htail
        have hslot : ps.length < 4 := by omega
        have hset : (slots ps).set ⟨ps.length, hslot⟩ (textPayload data.bytes)
            = slots (ps ++ [textPayload data.bytes]) := padTo_set hslot _
        rw [Option.map_some, Option.getD_some, if_neg (textPayload_len data.bytes)]
        refine (bind_of_ok (store_of_lt (slots ps) hslot (textPayload data.bytes) _)).trans ?_
        rw [hset]
        refine Eq.trans ?_ ((hrest (ps ++ [textPayload data.bytes]) g (note (.text q.toNat) s)
          (by omega) (hlib.still _ hcall hready) htail (by simp; omega)).trans ?_)
        · simp [Progress.holding]
        · congr 1
          rw [Option.map_map]
          refine Option.map_congr fun a _ => ?_
          rw [List.append_assoc]
          rfl

/-- The response to what the parser made of a query, read off the table. -/
def replyTo (db : Lookup) : Option Request → Response
  | none => errorReply
  | some req =>
    match collect db req.char1 req.char2 req.executed with
    | none => errorReply
    | some a => okResponse a

theorem replyTo_of_some {a : Answer} (h : collect db req.char1 req.char2 req.executed = some a) :
    replyTo db (some req) = okResponse a := by
  rw [replyTo, h]

theorem replyTo_of_none (h : collect db req.char1 req.char2 req.executed = none) :
    replyTo db (some req) = errorReply := by
  rw [replyTo, h]

/-- A buffer with an accepted request gets the answer if every lookup succeeds. -/
theorem replyTo_found {b : List.Vector UInt8 queryLen} (hreq : castRequest b = req)
    (h : Accepted req) (hfound : ∀ q ∈ req.executed, Found db req.char1 req.char2 q) :
    ∃ a, collect db req.char1 req.char2 req.executed = some a ∧
      replyTo db (parseQuery b) = okResponse a := by
  obtain ⟨a, ha⟩ := Option.isSome_iff_exists.mp ((collect_isSome _).mpr hfound)
  refine ⟨a, ha, ?_⟩
  rw [parseQuery_eq_some.mpr ⟨hreq, h⟩, replyTo_of_some ha]

/-- Any other buffer gets the error. -/
theorem replyTo_refused {b : List.Vector UInt8 queryLen} (hreq : castRequest b = req)
    (h : ¬(Accepted req ∧ ∀ q ∈ req.executed, Found db req.char1 req.char2 q)) :
    replyTo db (parseQuery b) = errorReply := by
  cases hparse : parseQuery b with
  | none => rfl
  | some parsed =>
    obtain ⟨hcast, hacc⟩ := parseQuery_eq_some.mp hparse
    obtain rfl : req = parsed := hreq.symm.trans hcast
    refine replyTo_of_none ?_
    rw [← Option.not_isSome_iff_eq_none, collect_isSome]
    exact fun hfound => h ⟨hacc, hfound⟩

/-- **What `execute_query` returns**, and which lookups it makes. -/
theorem executeQuery_serves (hlib : Serves lib db req.char1 req.char2 asked note ready)
    (h : Accepted req) {s : σ} (hready : ready req.numQueries.toNat s)
    (hasked : ∀ call ∈ callsFor db req.char1 req.char2 req.executed, asked call) :
    executeQuery lib (some req) s
      = .ok (replyTo db (some req))
        (noteAll note (callsFor db req.char1 req.char2 req.executed) s) := by
  have hcount := h.count_le
  have htexts := h.executed_texts
  rw [Request.executed] at htexts
  have hloop : executeLoop lib req req.numQueries.toNat 0 Progress.init s = _ :=
    executeLoop_serves hlib req.numQueries.toNat 0 [] none s (by omega) hready hasked
      ((Nat.zero_add _).trans_le htexts)
  rw [List.drop_zero, ← Request.executed] at hloop
  rw [executeQuery, bind_of_ok hloop, replyTo]
  cases collect db req.char1 req.char2 req.executed with
  | none => exact errorResponse_run _
  | some a =>
    dsimp only [Option.map_some]
    rw [Option.or_none]
    simp [okResponse, Progress.holding]

/-- Against a table the executor of a parsed query leaves the process alone. -/
theorem executeQuery_ofLookup (db : Lookup) (b : List.Vector UInt8 queryLen) (s : σ) :
    executeQuery (ofLookup db) (parseQuery b) s = .ok (replyTo db (parseQuery b)) s := by
  cases hparse : parseQuery b with
  | none => exact errorResponse_run s
  | some req =>
    obtain ⟨_, hacc⟩ := parseQuery_eq_some.mp hparse
    rw [executeQuery_serves (ofLookup_serves db req.char1 req.char2) hacc trivial
      fun _ _ => trivial, noteAll, List.foldl_fixed]

/-- Against a table that writes its calls down. -/
theorem executeQuery_traced (db : Lookup) {req : Request} (h : Accepted req) (calls : List Call) :
    executeQuery (traced db) (some req) calls
      = .ok (replyTo db (some req))
        (calls ++ callsFor db req.char1 req.char2 req.executed) := by
  have hnote : ∀ (cs : List Call) (calls : List Call),
      noteAll (fun call calls => calls ++ [call]) cs calls = calls ++ cs := by
    intro cs
    induction cs with
    | nil => exact fun calls => (List.append_nil calls).symm
    | cons c cs ih => exact fun calls => (ih _).trans (List.append_cons calls c cs).symm
  rw [executeQuery_serves (traced_serves db req.char1 req.char2) h trivial fun _ _ => trivial,
    hnote]

/-- The local copy of a flag is of no consequence. -/
theorem printResponse_ofLookup (db : Lookup) (res : Response) (s : σ) :
    printResponse (ofLookup db) res s = .ok () s := by
  unfold printResponse
  split <;> rfl

/-- Without a flag there is nothing to copy. -/
theorem printResponse_text {res : Response} (h : res.gif = GifPayload.zero) (s : σ) :
    printResponse lib res s = .ok () s := by
  rw [printResponse, h]
  rfl

end Loop

end StateProtocol.V2
