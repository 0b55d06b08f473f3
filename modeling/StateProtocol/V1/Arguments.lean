import StateProtocol.Clib.Scan
import StateProtocol.V1.Client

/-!
# The arguments of the version 1 client (`parse_client_args`, `main`)

The first argument is scanned with an unbounded `"%s"` into 100 bytes, so a word
of 100 bytes or more is written past them. The second is to be in [1, 5], as the
error text says and as the servers have it, but is compared with 0 and 6, which
are accepted. `clientMain_validates_iff` says which pairs of arguments are handled as
they are to be.
-/

namespace StateProtocol.V1

open StateProtocol.Clib StateProtocol.Data

/-- A client with its standard error stream. -/
structure Invocation where
  client : Client
  /-- lines on the standard error stream -/
  errors : List String

/-- A line on the standard error stream and `exit(1)`. -/
def exitWith {α : Type} (text : String) : C Invocation α := fun s =>
  .error (.exit 1) { s with errors := s.errors ++ [text] }

def onClient {α : Type} (x : C Client α) : C Invocation α := fun s =>
  match x s.client with
  | .ok a c => .ok a { s with client := c }
  | .error e c => .error e { s with client := c }

/-- The second half of `parse_client_args`. -/
def parseOpcode (outside : Int → Int32) (arg2 : CString) : C Invocation Int32 :=
  match scanInt arg2.bytes with
  | none => exitWith "Opcode must be an integer"
  | some n =>
    let tempCode := storeInt outside n
    if tempCode < 0 ∨ tempCode > 6 then exitWith "Opcode must be in the range [1, 5]"
    else return tempCode

/-- `parse_client_args`: the opcode and the two characters. -/
def parseClientArgs (outside : Int → Int32) :
    (argv : List CString) → C Invocation (Int32 × UInt8 × UInt8)
  | [_, arg1, arg2] =>
    match scanWord arg1.bytes with
    | none => exitWith "The first argument must be the two letter abbreviation of a state"
    | some word => do
      -- `malloc(100 * sizeof(char))`, filled by an unbounded "%s"
      let tempState ← storeFrom (zeroPad 100 []) 0 (word ++ [0])
      let text ← loadString tempState
      if text.strlen = 2 then
        let char1 ← load tempState 0
        let char2 ← load tempState 1
        let opcode ← parseOpcode outside arg2
        return (opcode, char1, char2)
      else exitWith "The state abbreviation must have exactly two letters"
  | _ => exitWith "The client requires exactly three arguments"

/-- What `main` finds outside of its arguments. -/
structure Environment where
  /-- `getenv("STATE_INFO_HOST")` -/
  addr : Option CString
  /-- `getenv("STATE_INFO_PORT")` -/
  portStr : Option CString
  /-- does `socket` succeed? -/
  opens : Bool
  /-- does `inet_pton` take the address? -/
  valid : CString → Bool
  /-- does `connect` succeed? -/
  connects : Bool

/-- The part of `main` between the arguments and the request. -/
def connectClient (outside : Int → Int32) (env : Environment) : C Invocation Unit :=
  match env.addr, env.portStr with
  | none, _ => exitWith "Must define an address via the STATE_INFO_HOST environment variable"
  | some _, none => exitWith "Must define a port via the STATE_INFO_PORT environment variable"
  | some addr, some portStr =>
    -- `atoi`
    let port := (scanInt portStr.bytes).elim 0 (storeInt outside)
    if port < 0 ∨ port > 65535 then exitWith "Port must be in the range [0, 65535]"
    else if env.opens = false then exitWith "Socket creation error "
    else if env.valid addr = false then exitWith "Invalid server address"
    else if env.connects = false then exitWith "Connection Failed "
    else return ()

/-- The request for an opcode, which is a field of one byte. -/
def requestOf (opcode : Int32) (char1 char2 : UInt8) : Request :=
  ⟨1, opcode.toUInt32.toUInt8, char1, char2⟩

/-- `main` -/
def clientMain (outside : Int → Int32) (env : Environment) (argv : List CString) :
    C Invocation Unit := do
  let (opcode, char1, char2) ← parseClientArgs outside argv
  connectClient outside env
  onClient (sendAndRecieve (requestOf opcode char1 char2))

/-! ## The property -/

/-- The first word is the two characters, and the integer is an opcode. -/
structure ValidArgs (arg1 arg2 : CString) (n : Int) (char1 char2 : UInt8) : Prop where
  word : FirstWord arg1.bytes [char1, char2]
  code : LeadingInt arg2.bytes n
  low : 1 ≤ n
  high : n ≤ 5

/-- The client handles a pair of arguments as it is to. -/
structure Validates (outside : Int → Int32) (arg1 arg2 : CString) : Prop where
  /-- The word is stored inside of the bytes that are allocated for it. -/
  inside : ∀ name s t, parseClientArgs outside [name, arg1, arg2] s ≠ .error .fault t
  /-- Valid arguments become the request that is sent once there is a connection. -/
  sends : ∀ n char1 char2, ValidArgs arg1 arg2 n char1 char2 → ∀ env name,
    clientMain outside env [name, arg1, arg2] = (connectClient outside env >>= fun _ =>
      onClient (sendAndRecieve ⟨1, UInt8.ofNat n.toNat, char1, char2⟩))
  /-- Others end the client, with the connection as it was. -/
  exits : (∀ n char1 char2, ¬ValidArgs arg1 arg2 n char1 char2) → ∀ env name s,
    ∃ t, clientMain outside env [name, arg1, arg2] s = .error (.exit 1) t ∧ t.client = s.client

/-! ## The first argument -/

section Parse

variable {outside : Int → Int32} {name arg1 arg2 : CString} {word : Bytes} {n : Int}
  {char1 char2 : UInt8} {s : Invocation}

theorem parse_no_word (h : scanWord arg1.bytes = none) :
    parseClientArgs outside [name, arg1, arg2]
      = exitWith "The first argument must be the two letter abbreviation of a state" := by
  rw [parseClientArgs, h]

/-- A word that does not fit is written past the end. -/
theorem parse_overrun (h : scanWord arg1.bytes = some word) (hlen : 100 ≤ word.length) :
    parseClientArgs outside [name, arg1, arg2] s = .error .fault s := by
  rw [parseClientArgs, h]
  refine bind_of_error (storeFrom_fault _ _ 0 s (by simp) (Or.inr ?_))
  rw [List.length_append, List.length_singleton]
  omega

theorem word_noNull (h : scanWord arg1.bytes = some word) : 0 ∉ word := by
  obtain ⟨pre, rest, hs, -⟩ := scanWord_eq_some.mp h
  intro h0
  refine arg1.noNull ?_
  rw [hs]
  simp [h0]

/-- The memory of a word that fits. -/
theorem word_stored (h : scanWord arg1.bytes = some word) (hlen : word.length ≤ 99) :
    (storeFrom (zeroPad 100 []) 0 (word ++ [0]) : C Invocation _) s
        = .ok (zeroPad 100 (word ++ [0])) s ∧
      ∃ text : CString, text.bytes = word ∧
        (loadString (zeroPad 100 (word ++ [0])) : C Invocation _) s = .ok text s := by
  have hfits : (word ++ [0]).length ≤ 100 := by
    rw [List.length_append, List.length_singleton]
    omega
  have hbuff : (zeroPad 100 (word ++ [0])).toList
      = word ++ 0 :: List.replicate (100 - (word ++ [0]).length) 0 := by
    rw [zeroPad_toList, List.take_of_length_le hfits, List.append_assoc, List.singleton_append]
  constructor
  · exact storeFrom_run (word ++ [0]) [] s (by simpa using hfits)
  · refine ⟨cstr (zeroPad 100 (word ++ [0])).toList, ?_, ?_⟩
    · rw [hbuff, cstr_append_null (word_noNull h)]
    · rw [loadString, if_pos]
      · rfl
      · rw [hbuff]
        simp

/-- Any other length than two is refused. -/
theorem parse_length (h : scanWord arg1.bytes = some word) (hlen : word.length ≤ 99)
    (htwo : word.length ≠ 2) : parseClientArgs outside [name, arg1, arg2] s
      = exitWith "The state abbreviation must have exactly two letters" s := by
  obtain ⟨hstore, text, htext, hload⟩ := word_stored (s := s) h hlen
  rw [parseClientArgs, h]
  dsimp only
  rw [bind_of_ok hstore, bind_of_ok hload, if_neg]
  rwa [CString.strlen, htext]

/-- With two characters it is up to the second argument. -/
theorem parse_two (h : scanWord arg1.bytes = some [char1, char2]) :
    parseClientArgs outside [name, arg1, arg2]
      = (parseOpcode outside arg2 >>= fun opcode => pure (opcode, char1, char2)) := by
  funext s
  obtain ⟨hstore, text, htext, hload⟩ := word_stored (s := s) h (by simp)
  have htwo : text.strlen = 2 := by
    rw [CString.strlen, htext]
    rfl
  have hget (i : Nat) (hi : i < 100) :
      (load (zeroPad 100 ([char1, char2] ++ [0])) i : C Invocation _) s
        = .ok ([char1, char2, 0].getD i 0) s := by
    rw [load, dif_pos hi, zeroPad_get]
    rfl
  rw [parseClientArgs, h]
  dsimp only
  rw [bind_of_ok hstore, bind_of_ok hload, if_pos htwo, bind_of_ok (hget 0 (by omega)),
    bind_of_ok (hget 1 (by omega))]
  rfl

theorem parseOpcode_exits (hexit : scanInt arg2.bytes = none ∨
    ∃ n, scanInt arg2.bytes = some n ∧ (storeInt outside n < 0 ∨ storeInt outside n > 6)) :
    ∃ text, parseOpcode outside arg2 = exitWith text := by
  rcases hexit with hnone | ⟨n, hn, hrange⟩
  · exact ⟨_, by rw [parseOpcode, hnone]⟩
  · refine ⟨"Opcode must be in the range [1, 5]", ?_⟩
    rw [parseOpcode, hn]
    exact if_pos hrange

theorem parseOpcode_returns (hn : scanInt arg2.bytes = some n)
    (hrange : ¬(storeInt outside n < 0 ∨ storeInt outside n > 6)) :
    parseOpcode outside arg2 = pure (storeInt outside n) := by
  rw [parseOpcode, hn]
  exact if_neg hrange

theorem validArgs_iff : ValidArgs arg1 arg2 n char1 char2 ↔
    scanWord arg1.bytes = some [char1, char2] ∧ scanInt arg2.bytes = some n ∧ 1 ≤ n ∧ n ≤ 5 := by
  rw [scanWord_eq_some, scanInt_eq_some]
  exact ⟨fun h => ⟨h.word, h.code, h.low, h.high⟩, fun ⟨h1, h2, h3, h4⟩ => ⟨h1, h2, h3, h4⟩⟩

/-- Inside of `int` the comparison is one of integers. -/
theorem storeInt_refused (hn : -2 ^ 31 ≤ n ∧ n < 2 ^ 31) :
    (storeInt outside n < 0 ∨ storeInt outside n > 6) ↔ n < 0 ∨ 6 < n := by
  have hint : (storeInt outside n).toInt = n := by
    rw [storeInt, if_pos hn]
    exact Int32.toInt_ofInt_of_le hn.1 hn.2
  have h6 : (6 : Int32).toInt = 6 := rfl
  rw [gt_iff_lt, Int32.lt_iff_toInt_lt, Int32.lt_iff_toInt_lt, hint, Int32.toInt_zero, h6]

/-! ## The whole client -/

variable {env : Environment}

theorem clientMain_exits {text : String}
    (h : parseClientArgs outside [name, arg1, arg2] s = exitWith text s) :
    ∃ t, clientMain outside env [name, arg1, arg2] s = .error (.exit 1) t ∧
      t.client = s.client :=
  ⟨_, bind_of_error h, rfl⟩

theorem clientMain_goes_on {opcode : Int32}
    (hword : scanWord arg1.bytes = some [char1, char2])
    (hcode : parseOpcode outside arg2 = pure opcode) :
    clientMain outside env [name, arg1, arg2] = (connectClient outside env >>= fun _ =>
      onClient (sendAndRecieve (requestOf opcode char1 char2))) := by
  rw [clientMain, parse_two hword, hcode]
  rfl

/-- An environment in which there is a connection. -/
def Environment.working : Environment where
  addr := some ⟨ascii "127.0.0.1", by decide⟩
  portStr := some ⟨[53, 48, 53, 48], by decide⟩
  opens := true
  valid _ := true
  connects := true

theorem connectClient_working : connectClient outside Environment.working = pure () := by
  have hscan : scanInt [53, 48, 53, 48] = some 5050 := by decide
  have hport : (scanInt [53, 48, 53, 48]).elim 0 (storeInt outside) = 5050 := by
    rw [hscan, Option.elim_some, storeInt, if_pos (by omega)]
    rfl
  rw [connectClient, Environment.working]
  dsimp only
  rw [hport]
  rfl

/-- A client that waits in its first `write`. -/
def Invocation.fresh : Invocation :=
  ⟨Client.started [] [] (fun _ => 0) (RoomyDisk.empty 0).disk, []⟩

theorem fresh_sends (req : Request) :
    onClient (sendAndRecieve req) Invocation.fresh = .error .blocked Invocation.fresh := by
  rfl

/-- With an accepted opcode the client goes on, so it has to be a valid one. -/
theorem Validates.in_range (h : Validates outside arg1 arg2)
    (hword : scanWord arg1.bytes = some [char1, char2]) (hn : scanInt arg2.bytes = some n)
    (hrange : ¬(storeInt outside n < 0 ∨ storeInt outside n > 6)) : 1 ≤ n ∧ n ≤ 5 := by
  by_contra hinvalid
  have hnone : ∀ m a b, ¬ValidArgs arg1 arg2 m a b := by
    intro m a b hvalid
    obtain ⟨-, hm, hle⟩ := validArgs_iff.mp hvalid
    obtain rfl := Option.some.inj (hn.symm.trans hm)
    exact hinvalid hle
  obtain ⟨t, ht, -⟩ := h.exits hnone Environment.working arg1 Invocation.fresh
  rw [clientMain_goes_on hword (parseOpcode_returns hn hrange), connectClient_working, pure_bind,
    fresh_sends] at ht
  cases ht

/-- What the client needs its arguments to be: the word fits, and with a word of two
bytes the integer is none of those that are wrongly accepted. -/
structure Handled (outside : Int → Int32) (arg1 arg2 : CString) : Prop where
  fits : ∀ word, FirstWord arg1.bytes word → word.length ≤ 99
  opcode : ∀ word n, FirstWord arg1.bytes word → word.length = 2 → LeadingInt arg2.bytes n →
    n ≠ 0 ∧ n ≠ 6 ∧
      (¬(-2 ^ 31 ≤ n ∧ n < 2 ^ 31) → outside n < 0 ∨ outside n > 6)

theorem Validates.handled (h : Validates outside arg1 arg2) : Handled outside arg1 arg2 where
  fits word hword := by
    by_contra hlong
    exact h.inside arg1 Invocation.fresh _
      (parse_overrun (scanWord_eq_some.mpr hword) (by omega))
  opcode word n hword hlen hn := by
    obtain ⟨char1, char2, rfl⟩ := List.length_eq_two.mp hlen
    have hrange := h.in_range (scanWord_eq_some.mpr hword) (scanInt_eq_some.mpr hn)
    refine ⟨?_, ?_, fun houtside => ?_⟩
    · rintro rfl
      have := hrange (mt (storeInt_refused (by omega)).mp (by omega))
      omega
    · rintro rfl
      have := hrange (mt (storeInt_refused (by omega)).mp (by omega))
      omega
    · by_contra haccepted
      rw [storeInt, if_neg houtside] at hrange
      have := hrange haccepted
      omega

/-- A pair that is handled: it is valid, or refused by one of the checks. -/
theorem Handled.cases (h : Handled outside arg1 arg2) :
    (∃ char1 char2 n, ValidArgs arg1 arg2 n char1 char2) ∨
      ∀ name s, ∃ text, parseClientArgs outside [name, arg1, arg2] s = exitWith text s := by
  cases hword : scanWord arg1.bytes with
  | none => exact Or.inr fun name s => ⟨_, congrFun (parse_no_word hword) s⟩
  | some word =>
    have hfits := h.fits word (scanWord_eq_some.mp hword)
    by_cases htwo : word.length = 2
    · obtain ⟨char1, char2, rfl⟩ := List.length_eq_two.mp htwo
      have hrefused (hexit : ∃ text, parseOpcode outside arg2 = exitWith text) (name : CString)
          (s : Invocation) : ∃ text,
            parseClientArgs outside [name, arg1, arg2] s = exitWith text s := by
        obtain ⟨text, htext⟩ := hexit
        refine ⟨text, ?_⟩
        rw [parse_two hword, htext]
        rfl
      cases hcode : scanInt arg2.bytes with
      | none => exact Or.inr (hrefused (parseOpcode_exits (Or.inl hcode)))
      | some n =>
        obtain ⟨h0, h6, hout⟩ := h.opcode _ n (scanWord_eq_some.mp hword) htwo
          (scanInt_eq_some.mp hcode)
        by_cases hvalid : 1 ≤ n ∧ n ≤ 5
        · exact Or.inl ⟨char1, char2, n, validArgs_iff.mpr ⟨hword, hcode, hvalid⟩⟩
        · refine Or.inr (hrefused (parseOpcode_exits (Or.inr ⟨n, hcode, ?_⟩)))
          by_cases hint : -2 ^ 31 ≤ n ∧ n < 2 ^ 31
          · exact (storeInt_refused hint).mpr (by omega)
          · rw [storeInt, if_neg hint]
            exact hout hint
    · exact Or.inr fun name s => ⟨_, parse_length hword hfits htwo⟩

theorem requestOf_valid (hn : 1 ≤ n ∧ n ≤ 5) :
    requestOf (storeInt outside n) char1 char2 = ⟨1, UInt8.ofNat n.toNat, char1, char2⟩ := by
  obtain ⟨k, rfl⟩ := Int.eq_ofNat_of_zero_le (show 0 ≤ n by omega)
  rw [requestOf, storeInt, if_pos (by omega), Int32.ofInt_eq_ofNat, Int32.toUInt32_ofNat',
    UInt32.toUInt8_ofNat', Int.toNat_natCast]

/-- Valid arguments are parsed. -/
theorem ValidArgs.parse (h : ValidArgs arg1 arg2 n char1 char2) :
    parseOpcode outside arg2 = pure (storeInt outside n) := by
  obtain ⟨-, hcode, hvalid⟩ := validArgs_iff.mp h
  exact parseOpcode_returns hcode (mt (storeInt_refused (by omega)).mp (by omega))

theorem Handled.validates (h : Handled outside arg1 arg2) : Validates outside arg1 arg2 where
  inside name s t hfault := by
    rcases h.cases with ⟨char1, char2, n, hvalid⟩ | hexit
    · rw [parse_two (validArgs_iff.mp hvalid).1, hvalid.parse] at hfault
      cases hfault
    · obtain ⟨text, htext⟩ := hexit name s
      rw [htext] at hfault
      cases hfault
  sends n char1 char2 hvalid env name := by
    obtain ⟨hword, -, hrange⟩ := validArgs_iff.mp hvalid
    rw [clientMain_goes_on hword hvalid.parse, requestOf_valid hrange]
  exits hinvalid env name s := by
    rcases h.cases with ⟨char1, char2, n, hvalid⟩ | hexit
    · exact absurd hvalid (hinvalid n char1 char2)
    · obtain ⟨text, htext⟩ := hexit name s
      exact clientMain_exits htext

end Parse

/-- **Which arguments are handled as they are to be.** -/
theorem clientMain_validates_iff (outside : Int → Int32) (arg1 arg2 : CString) :
    Validates outside arg1 arg2 ↔ Handled outside arg1 arg2 :=
  ⟨Validates.handled, Handled.validates⟩

/-- The opcode 0, and a word of a hundred bytes. -/
theorem not_validates_zero_long :
    ¬Validates longToInt ⟨ascii "nh", by decide⟩ ⟨ascii "0", by decide⟩ ∧
      ¬Validates longToInt ⟨List.replicate 100 97, by decide⟩ ⟨ascii "1", by decide⟩ := by
  constructor
  · intro h
    have hword : scanWord (ascii "nh") = some [110, 104] := by decide
    have hcode : scanInt (ascii "0") = some 0 := by decide
    have hrange := h.in_range hword hcode (by decide)
    omega
  · intro h
    have hword : FirstWord (List.replicate 100 97) (List.replicate 100 97) :=
      ⟨[], [], (List.append_nil _).symm, nofun, by simp, fun c hc => by
        rw [List.eq_of_mem_replicate hc]
        decide, nofun⟩
    have hlen := h.handled.fits _ hword
    rw [List.length_replicate] at hlen
    omega

end StateProtocol.V1
