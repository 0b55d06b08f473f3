import StateProtocol.Clib.Client
import StateProtocol.Data.Save
import StateProtocol.V1.Tcp

/-!
# The version 1 client (`Version1_Client/tcpcli.c`)

`send_and_recieve` writes a request, reads the six bytes of a response header
one by one, and then receives the payload in as many pieces as it comes in, into
a buffer of one byte more than the header announces. A piece that ends at the
announced length ends the loop; one that goes past it, or the end of the stream,
ends the client.

The length that has arrived is a signed number and the announced one is not, so
`receiveLoop_chunk` says what one piece does while the sum is small. From it come
the run over a stream that is not too long (`receiveLoop_run`), and what the
client makes of it, whatever the pieces are (`sendAndRecieve_reassembles`).
-/

namespace StateProtocol.V1

open StateProtocol.Clib StateProtocol.Data

def headerLength : Nat := 6

/-- `struct responseHeader` -/
structure ResponseHeader where
  version : UInt8
  status : UInt8
  len : UInt32

/-- The buffer seen as a `struct responseHeader`. -/
def castHeader (headerBuff : List.Vector UInt8 headerLength) : ResponseHeader where
  version := headerBuff.get ⟨0, by decide⟩
  status := headerBuff.get ⟨1, by decide⟩
  len := loadWord (headerBuff.toList.drop 2)

/-- The memory image of a `struct request`. -/
def Request.encode (req : Request) : Bytes := [req.version, req.opcode, req.char1, req.char2]

/-! ## The parts of `send_and_recieve` -/

/-- `for (;;) { n += write(…); if (n == sizeof(req)) break; }`: a call that fails
counts as -1. -/
def writeLoop (req : Bytes) : (calls : Nat) → (n : Int) → C Proc Unit
  | 0, _ => throw .blocked
  | calls + 1, n => do
    let k ← write req
    let n := n + k.elim (-1) Nat.cast
    if n = req.length then return () else writeLoop req calls n

/-- The first loop of `send_and_recieve`. Each call uses up an offer. -/
def sendRequest (req : Request) : C Proc Unit := fun p =>
  writeLoop req.encode (p.offers.length + 1) 0 p

/-- The bytes of `calloc(len + 1, sizeof(char))`, where the sum is 32 bits wide. -/
def allocated (len : UInt32) : Nat := (len + 1).toNat

/-- The loop that receives the payload, with `total` bytes counted. -/
def receiveLoop {n : Nat} (len : UInt32) :
    (calls : Nat) → (total : Int32) → List.Vector UInt8 n → C Client (List.Vector UInt8 n)
  | 0, _, _ => throw .blocked
  | calls + 1, total, payloadBuff => do
    -- every call may fill in `len` bytes, however many have come before
    let received ← recv len.toNat
    let payloadBuff ← storeFrom payloadBuff total.toInt (received.getD [])
    let count : Int32 := received.elim (-1) fun bs => Int32.ofNat bs.length
    let total := total + count
    if count < 0 then throw (.exit 1)
    else if total.toUInt32 = len then return payloadBuff
    else if count = 0 ∧ total.toUInt32 < len then throw (.exit 1)
    else if total.toUInt32 > len then throw (.exit 1)
    else receiveLoop len calls total payloadBuff

/-- The allocation and its loop. Each call but the last takes a byte off the
stream, so its length bounds the calls. -/
def receivePayload (len : UInt32) : C Client (List.Vector UInt8 (allocated len)) := fun c =>
  receiveLoop len (c.proc.input.length + 1) 0 (zeroPad (allocated len) []) c

/-- What is done with the payload. -/
def deliver {n : Nat} (req : Request) (status : UInt8) (len : UInt32)
    (payloadBuff : List.Vector UInt8 n) : C Client Unit :=
  if status = 255 then do
    let text ← loadString payloadBuff
    print (ascii "Recieved error: " ++ text.bytes ++ [newline])
  else if status = 1 ∧ req.opcode = 5 then do
    print (ascii "Saved state flag locally" ++ [newline])
    onFiles (Local.saveGif req.char1 req.char2 payloadBuff.toList len.toInt32)
  else if status = 1 then do
    let text ← loadString payloadBuff
    print (text.bytes ++ [newline])
  else return ()

/-- `send_and_recieve` -/
def sendAndRecieve (req : Request) : C Client Unit := do
  onConnection (sendRequest req)
  let headerBuff ← onConnection (readLoop headerLength 0 (zeroPad headerLength []))
  let header := castHeader headerBuff
  let len := ntohl header.len
  if header.version ≠ 1 then throw (.exit 1)
  else
    let payloadBuff ← receivePayload len
    deliver req header.status len payloadBuff

/-! ## One piece of the payload -/

section Receive

variable {n : Nat} {len : UInt32} {c d : Client}

theorem toUInt32_eq_iff {k : Nat} (h : k < 2 ^ 32) :
    (Int32.ofNat k).toUInt32 = len ↔ k = len.toNat := by
  rw [Int32.toUInt32_ofNat', ← UInt32.toNat_inj, UInt32.toNat_ofNat_of_lt' h]

theorem toUInt32_lt_iff {k : Nat} (h : k < 2 ^ 32) :
    (Int32.ofNat k).toUInt32 < len ↔ k < len.toNat := by
  rw [Int32.toUInt32_ofNat', UInt32.lt_iff_toNat_lt, UInt32.toNat_ofNat_of_lt' h]

theorem lt_toUInt32_iff {k : Nat} (h : k < 2 ^ 32) :
    (Int32.ofNat k).toUInt32 > len ↔ len.toNat < k := by
  rw [Int32.toUInt32_ofNat', gt_iff_lt, UInt32.lt_iff_toNat_lt, UInt32.toNat_ofNat_of_lt' h]

/-- One round, with `pre` in the buffer and `bs` handed out, which fits. -/
theorem receiveLoop_chunk {bs : Bytes} (pre : Bytes) (calls : Nat)
    (hrecv : recv len.toNat c = .ok (some bs) d) (hpre : bs ≠ [] → pre.length < 2 ^ 31)
    (hroom : pre.length + bs.length ≤ n) (hn : n < 2 ^ 32) :
    receiveLoop len (calls + 1) (Int32.ofNat pre.length) (zeroPad n pre) c =
      if 2 ^ 31 ≤ bs.length then .error (.exit 1) d
      else if (pre ++ bs).length = len.toNat then .ok (zeroPad n (pre ++ bs)) d
      else if bs = [] ∧ (pre ++ bs).length < len.toNat then .error (.exit 1) d
      else if len.toNat < (pre ++ bs).length then .error (.exit 1) d
      else receiveLoop len calls (Int32.ofNat (pre ++ bs).length) (zeroPad n (pre ++ bs)) d := by
  have hlen : (pre ++ bs).length < 2 ^ 32 := by
    rw [List.length_append]
    omega
  have hbs : bs.length < 2 ^ 32 := by omega
  have hstore : storeFrom (zeroPad n pre) (Int32.ofNat pre.length).toInt bs d
      = .ok (zeroPad n (pre ++ bs)) d := by
    by_cases hbs0 : bs = []
    · rw [hbs0, List.append_nil]
      rfl
    · rw [Int32.toInt_ofNat_of_lt (hpre hbs0)]
      exact storeFrom_run bs pre d hroom
  have hsum : Int32.ofNat pre.length + Int32.ofNat bs.length = Int32.ofNat (pre ++ bs).length := by
    rw [List.length_append, Int32.ofNat_add]
  have hzero : ¬2 ^ 31 ≤ bs.length → (Int32.ofNat bs.length = 0 ↔ bs = []) := by
    intro hsmall
    rw [← Int32.toInt_inj, Int32.toInt_ofNat_of_lt (Nat.not_le.mp hsmall), Int32.toInt_zero,
      ← List.length_eq_zero_iff]
    omega
  rw [receiveLoop, bind_of_ok hrecv]
  dsimp only [Option.getD_some, Option.elim_some]
  rw [bind_of_ok hstore, hsum]
  by_cases hsmall : 2 ^ 31 ≤ bs.length
  · rw [if_pos hsmall, if_pos ((ofNat_neg_iff hbs).mpr hsmall)]
    rfl
  · rw [if_neg hsmall, if_neg (mt (ofNat_neg_iff hbs).mp hsmall)]
    simp only [toUInt32_eq_iff hlen, toUInt32_lt_iff hlen, lt_toUInt32_iff hlen, hzero hsmall]
    split
    · rfl
    · split
      · rfl
      · split <;> rfl

/-- The loop comes to an end, whatever is sent: each round takes a byte off the
stream or is the last. -/
theorem receiveLoop_ends : ∀ (calls : Nat) (total : Int32) (payloadBuff : List.Vector UInt8 n)
    (c : Client), c.proc.input.length < calls →
    ∀ t, receiveLoop len calls total payloadBuff c ≠ .error .blocked t := by
  intro calls
  induction calls with
  | zero =>
    intro total payloadBuff c hcalls
    exact absurd hcalls (Nat.not_lt_zero _)
  | succ calls ih =>
    intro total payloadBuff c hcalls t hblocked
    rw [receiveLoop] at hblocked
    by_cases hopen : c.proc.input = [] ∧ c.proc.broken = true
    · rw [bind_of_ok (recv_broken len.toNat hopen)] at hblocked
      cases hblocked
    · rw [bind_of_ok (recv_run len.toNat hopen)] at hblocked
      dsimp only [Option.getD_some, Option.elim_some] at hblocked
      generalize hk : min (c.chunks.head + 1) len.toNat = k at hblocked
      rcases storeFrom_ends (c.proc.input.take k) payloadBuff total.toInt (c.take k) with
        ⟨v, hv⟩ | hfault
      · rw [bind_of_ok hv] at hblocked
        split at hblocked
        · cases hblocked
        · split at hblocked
          · cases hblocked
          · split at hblocked
            · cases hblocked
            next hne hmore =>
              split at hblocked
              · cases hblocked
              next hle =>
                have hlt := UInt32.lt_of_le_of_ne (UInt32.not_lt.mp hle) hne
                have hsome : c.proc.input.take k ≠ [] := by
                  intro hnone
                  rw [hnone] at hmore hlt
                  exact hmore ⟨rfl, hlt⟩
                refine ih _ _ (c.take k) ?_ t hblocked
                show (c.proc.input.drop k).length < calls
                have hpos := List.length_pos_iff.mpr hsome
                rw [List.length_take] at hpos
                rw [List.length_drop]
                omega
      · rw [bind_of_error hfault] at hblocked
        cases hblocked

theorem receivePayload_ends (len : UInt32) (c t : Client) :
    receivePayload len c ≠ .error .blocked t :=
  receiveLoop_ends _ _ _ c (Nat.lt_succ_self _) t

/-- A stream that is not longer than announced fills the buffer, or ends the
client; either way all of it has been received. How the stream ends does not matter as
long as something is asked for. -/
theorem receiveLoop_run (hlen : len.toNat < n) (hn : n ≤ 2 ^ 31) :
    ∀ (calls : Nat) (pre s : Bytes) (c : Client), c.proc.input = s →
      (c.proc.broken = false ∨ pre.length < len.toNat) → s.length < calls →
      (pre ++ s).length ≤ len.toNat →
      ∃ chunks, receiveLoop len calls (Int32.ofNat pre.length) (zeroPad n pre) c =
        if (pre ++ s).length = len.toNat then .ok (zeroPad n (pre ++ s)) (c.drained chunks)
        else .error (.exit 1) (c.drained chunks) := by
  intro calls
  induction calls with
  | zero =>
    intro pre s c _ _ hcalls _
    exact absurd hcalls (Nat.not_lt_zero _)
  | succ calls ih =>
    intro pre s c hin hb hcalls hle
    by_cases hopen : c.proc.input = [] ∧ c.proc.broken = true
    · -- the connection is broken, and the payload is not there
      have hless : pre.length < len.toNat := hb.resolve_left (by rw [hopen.2]; decide)
      have hs : s = [] := hin ▸ hopen.1
      have hdrained : c = c.drained c.chunks := by
        rw [Client.drained, ← hopen.1]
      refine ⟨c.chunks, ?_⟩
      rw [hs, List.append_nil, if_neg hless.ne, ← hdrained, receiveLoop,
        bind_of_ok (recv_broken len.toNat hopen)]
      rfl
    have hrecv := recv_run len.toNat hopen
    rw [hin] at hrecv
    generalize hk : min (c.chunks.head + 1) len.toNat = k at hrecv
    have hsplit : pre ++ s.take k ++ s.drop k = pre ++ s := by
      rw [List.append_assoc, List.take_append_drop]
    have hsum := congrArg List.length hsplit
    rw [List.length_append] at hsum
    have hpre : pre.length + (s.take k).length ≤ len.toNat := by
      rw [← List.length_append]
      omega
    rw [receiveLoop_chunk pre calls hrecv (fun _ => by omega) (by omega) (by omega),
      if_neg (by omega)]
    by_cases hfull : (pre ++ s.take k).length = len.toNat
    · -- there is no room for a rest
      have hnil : s.drop k = [] := List.length_eq_zero_iff.mp (by omega)
      rw [hnil, List.append_nil] at hsplit
      refine ⟨c.chunks.tail, ?_⟩
      rw [if_pos hfull, ← hsplit, if_pos hfull, c.take_eq_drained (hin ▸ hnil)]
    · rw [if_neg hfull]
      by_cases hnone : s.take k = []
      · -- nothing has been handed out: the stream has ended
        have hs : s = [] := by
          rw [hnone, List.append_nil] at hfull
          refine (List.take_eq_nil_iff.mp hnone).resolve_left fun h0 => ?_
          omega
        have hnil : c.proc.input.drop k = [] := by rw [hin, hs, List.drop_nil]
        refine ⟨c.chunks.tail, ?_⟩
        rw [hs, List.take_nil, List.append_nil] at hfull ⊢
        rw [if_pos ⟨rfl, by omega⟩, if_neg hfull, c.take_eq_drained hnil]
      · rw [if_neg fun h => hnone h.1, if_neg (by omega)]
        have hshort : (s.drop k).length < calls := by
          have hpos := List.length_pos_iff.mpr hnone
          rw [List.length_append, List.length_append] at hsum
          omega
        have hless : (pre ++ s.take k).length < len.toNat :=
          lt_of_le_of_ne (List.length_append.trans_le hpre) hfull
        obtain ⟨chunks, hrun⟩ := ih (pre ++ s.take k) (s.drop k) (c.take k)
          (congrArg (List.drop k) hin) (Or.inr hless) hshort (hsplit ▸ hle)
        rw [hsplit] at hrun
        exact ⟨chunks, hrun⟩

end Receive

/-! ## The response -/

section Response

variable {req : Request} {status : UInt8} {len : UInt32} {s : Bytes} {c d : Client}

/-- The six bytes of a header, and what is made of them. -/
theorem header_run (hin : d.proc.input = 1 :: status :: (beBytes len ++ s)) :
    onConnection (readLoop headerLength 0 (zeroPad headerLength [])) d
      = .ok (zeroPad headerLength (1 :: status :: beBytes len)) (d.withInput s) ∧
    castHeader (zeroPad headerLength (1 :: status :: beBytes len))
      = ⟨1, status, loadWord (beBytes len)⟩ := by
  constructor
  · have hread := readLoop_run (n := headerLength) 6 [] _ hin (by simp) (Nat.le_refl 6)
    have htake : (1 :: status :: (beBytes len ++ s)).take 6 = 1 :: status :: beBytes len := rfl
    rw [htake] at hread
    exact onConnection_of_ok hread
  · rw [castHeader, zeroPad_get, zeroPad_get]
    rfl

/-- Once the request is written and the header read, what is left is the payload
and its delivery. -/
theorem sendAndRecieve_header (hsent : onConnection (sendRequest req) c = .ok () d)
    (hin : d.proc.input = 1 :: status :: (beBytes len ++ s)) :
    sendAndRecieve req c
      = (receivePayload len >>= deliver req status len) (d.withInput s) := by
  obtain ⟨hread, hcast⟩ := header_run hin
  rw [sendAndRecieve, bind_of_ok hsent, bind_of_ok hread, hcast]
  dsimp only
  rw [ntohl_loadWord, if_neg (not_not.mpr rfl)]

/-- The allocation has room for one byte more than announced, unless the sum is
too large for it. -/
theorem allocated_eq (len : UInt32) (h : len.toNat < 2 ^ 32 - 1) :
    allocated len = len.toNat + 1 := by
  rw [allocated, UInt32.toNat_add, UInt32.toNat_one]
  omega

/-- The payload is received in full, or the client exits. -/
theorem receivePayload_run (len : UInt32) (hlen : len.toNat < 2 ^ 31) (hs : s.length ≤ len.toNat)
    (hin : c.proc.input = s) (hb : c.proc.broken = false ∨ 0 < len.toNat) :
    ∃ chunks, receivePayload len c =
      if s.length = len.toNat then .ok (zeroPad (allocated len) s) (c.drained chunks)
      else .error (.exit 1) (c.drained chunks) := by
  have hroom := allocated_eq len (by omega)
  have hcalls : s.length < c.proc.input.length + 1 := by
    rw [hin]
    exact Nat.lt_succ_self _
  exact receiveLoop_run (by omega) (by omega) _ [] s c hin hb hcalls hs

end Response

/-- **Reassembly**: whatever the pieces are in which the payload comes. -/
theorem sendAndRecieve_reassembles (req : Request) (status : UInt8) (len : UInt32)
    (hlen : len.toNat < 2 ^ 31) (s : Bytes) (hs : s.length ≤ len.toNat) (c d : Client)
    (hsent : onConnection (sendRequest req) c = .ok () d)
    (hin : d.proc.input = 1 :: status :: (beBytes len ++ s)) (hb : d.proc.broken = false) :
    (s.length = len.toNat → ∃ payloadBuff t,
      receivePayload len (d.withInput s) = .ok payloadBuff t ∧ payloadBuff.toList = s ++ [0] ∧
      sendAndRecieve req c = deliver req status len payloadBuff t) ∧
    (s.length < len.toNat → ∃ t, sendAndRecieve req c = .error (.exit 1) t ∧
      t.printed = c.printed ∧ t.disk = c.disk) := by
  obtain ⟨chunks, hrun⟩ := receivePayload_run (c := d.withInput s) len hlen hs rfl (Or.inl hb)
  have hroom := allocated_eq len (by omega)
  rw [sendAndRecieve_header hsent hin]
  constructor
  · intro hfull
    rw [if_pos hfull] at hrun
    refine ⟨_, _, hrun, ?_, bind_of_ok hrun⟩
    rw [zeroPad_toList, List.take_of_length_le (by omega),
      show allocated len - s.length = 1 by omega, List.replicate_one]
  · intro hshort
    obtain ⟨p, -, rfl⟩ := onConnection_eq_ok hsent
    rw [if_neg (by omega)] at hrun
    exact ⟨_, bind_of_error hrun, rfl, rfl⟩

/-- Two bytes in two pieces. -/
theorem sendAndRecieve_two :
    ∃ (payloadBuff : List.Vector UInt8 (allocated 2)) (t : Client),
      payloadBuff.toList = [65, 66] ++ [0] ∧
      sendAndRecieve ⟨1, 1, 110, 104⟩ (Client.started (1 :: 1 :: (beBytes 2 ++ [65, 66])) [.room 3]
        (fun _ => 0) (RoomyDisk.empty 0).disk) = deliver ⟨1, 1, 110, 104⟩ 1 2 payloadBuff t := by
  obtain ⟨payloadBuff, t, -, hbuff, hrun⟩ :=
    (sendAndRecieve_reassembles ⟨1, 1, 110, 104⟩ 1 2 (by decide) [65, 66] (by decide)
      (Client.started (1 :: 1 :: (beBytes 2 ++ [65, 66])) [.room 3] (fun _ => 0)
        (RoomyDisk.empty 0).disk) _ rfl rfl rfl).1 rfl
  exact ⟨payloadBuff, t, hbuff, hrun⟩

end StateProtocol.V1
