import StateProtocol.Clib.Bind
import StateProtocol.Clib.Scan
import Mathlib.Data.Nat.Find

/-!
# The port a server starts on (`main` of the four servers, `parseArgs`)

`parseArgs` accepts a port with room for fifty attempts above it, and the search
keeps the port it has got in `port_found`, where 0 stands for none. So a server
that has got port 0 gives up: `main_searches_iff` is the exact condition, the
same for all four.
-/

namespace StateProtocol

open StateProtocol.Clib

/-- `parseArgs` of `lib/data_utils.c`: the port, or the text of the error with
which it exits. -/
def parseArgs (outside : Int → Int32) : (argv : List CString) → Except String Int32
  | [_, arg] =>
    match scanInt arg.bytes with
    | none => .error "Port number must be an integer"
    | some n =>
      let tempPort := storeInt outside n
      -- room for fifty ports from here on
      if tempPort < 0 ∨ tempPort > 65485 then
        .error ("Port number must be between 0 and 65485 " ++
          "(to allow trying multiple ports in case one is taken)")
      else .ok tempPort
  | _ => .error "The server takes one argument: the port to listen on"

/-- `for (int p = port; p < last; ++p) { … }`: the value of `port_found`. -/
def searchLoop (last : Int32) : (rounds : Nat) → (p : Int32) → C Startup Int32
  | 0, _ => throw .blocked
  | rounds + 1, p =>
    if p < last then do
      if ← bindPort (htons p) then
        complain ("Successfully bound to port " ++ toString p.toInt)
        return p
      else
        complain ("Failed to bind to port " ++ toString p.toInt)
        searchLoop last rounds (p + 1)
    else return 0

def noPortMsg : String := "No available ports in the range."

/-- `main` of a server, up to its service loop; `prepare` is what it does with the
port it has got. -/
def startServer (prepare : Int32 → C Startup Unit) (outside : Int → Int32)
    (argv : List CString) : C Startup Unit :=
  match parseArgs outside argv with
  | .error text => do
    complain text
    throw (.exit 1)
  | .ok port => do
    -- fifty attempts and the test that ends the loop
    let portFound ← searchLoop (port + 50) 51 port
    if portFound = 0 then
      complain noPortMsg
      throw (.exit 1)
    else prepare portFound

/-- The TCP servers go on to accept connections even if `listen` fails. -/
def listenOn (portFound : Int32) : C Startup Unit := do
  if ← Clib.listen then return ()
  else complain ("Error listenting on 127.0.0.1, " ++ toString portFound.toInt ++ ".")

/-- `main` of `Version1_Server/tcpserv.c` -/
def V1.main := startServer listenOn

/-- `main` of `Version1_Server/udpserv.c` -/
def V1.Udp.main := startServer fun _ => pure ()

/-- `main` of `Version2_Server/tcpserv2.c` -/
def V2.main := startServer listenOn

/-- `main` of `Version2_Server/udpserv2.c` -/
def V2.Udp.main := startServer fun _ => pure ()

/-! ## The property -/

/-- The port search of a `server` that is given `port`, when the attempts come out
as `outcomes` says. -/
structure SearchesPort (server : C Startup Unit) (port : Nat) (outcomes : Stream' Bool)
    (listens : Bool) : Prop where
  /-- The attempts go upwards from the port, at most fifty; as numbers of 16 bits
  they are what they are as an `int`. -/
  upwards : ∃ k ≤ 50, (finalState server (Startup.opened outcomes listens)).tried.map UInt16.toNat
    = List.range' port k
  /-- It goes on to serve if an attempt succeeds. -/
  serves : (∃ q, server (Startup.opened outcomes listens) = .ok () q) ↔
    ∃ i < 50, outcomes.get i = true
  /-- It does so on the first port that it gets. -/
  first : ∀ i < 50, (∀ j < i, outcomes.get j = false) → outcomes.get i = true →
    ∃ q, server (Startup.opened outcomes listens) = .ok () q ∧
      q.tried.map UInt16.toNat = List.range' port (i + 1) ∧
      q.bound.map UInt16.toNat = some (port + i)
  /-- It gives up if all fifty attempts fail. -/
  givesUp : (∃ q, server (Startup.opened outcomes listens) = .error (.exit 1) q ∧
    q.errors.getLast? = some noPortMsg) ↔ ∀ i < 50, outcomes.get i = false

/-! ## The loop -/

section Loop

variable {last n rounds : Nat} {l : Startup}

/-- The test of the loop, for ports below 2¹⁶. -/
theorem below_iff (hlast : last ≤ 2 ^ 16) (hn : n ≤ 2 ^ 16) :
    Int32.ofNat n < Int32.ofNat last ↔ n < last := by
  rw [Int32.lt_iff_toInt_lt, Int32.toInt_ofNat_of_lt (by omega), Int32.toInt_ofNat_of_lt (by omega)]
  omega

/-- The process after an attempt that failed. -/
def refused (l : Startup) (p : Int32) : Startup where
  outcomes := l.outcomes.tail
  listens := l.listens
  tried := l.tried ++ [htons p]
  bound := l.bound
  errors := l.errors ++ ["Failed to bind to port " ++ toString p.toInt]

/-- The process after one that succeeded. -/
def granted (l : Startup) (p : Int32) : Startup where
  outcomes := l.outcomes.tail
  listens := l.listens
  tried := l.tried ++ [htons p]
  bound := some (htons p)
  errors := l.errors ++ ["Successfully bound to port " ++ toString p.toInt]

/-- The port of an attempt. -/
theorem tried_append {ports : List UInt16} (hn : n < 2 ^ 16) :
    (ports ++ [htons (Int32.ofNat n)]).map UInt16.toNat = ports.map UInt16.toNat ++ [n] := by
  rw [List.map_append, List.map_singleton, htons_ofNat hn]

/-- An attempt that fails. -/
theorem searchLoop_fails (hlast : last ≤ 2 ^ 16) (hn : n < last) (h : l.outcomes.head = false) :
    searchLoop (Int32.ofNat last) (rounds + 1) (Int32.ofNat n) l =
      searchLoop (Int32.ofNat last) rounds (Int32.ofNat (n + 1)) (refused l (Int32.ofNat n)) := by
  rw [searchLoop, if_pos ((below_iff hlast (by omega)).mpr hn), bind_of_ok (bindPort_fails h),
    Int32.ofNat_add]
  rfl

/-- One that succeeds. -/
theorem searchLoop_succeeds (hlast : last ≤ 2 ^ 16) (hn : n < last) (h : l.outcomes.head = true) :
    searchLoop (Int32.ofNat last) (rounds + 1) (Int32.ofNat n) l =
      .ok (Int32.ofNat n) (granted l (Int32.ofNat n)) := by
  rw [searchLoop, if_pos ((below_iff hlast (by omega)).mpr hn), bind_of_ok (bindPort_succeeds h)]
  rfl

/-- The loop from `n`, when `i` attempts fail and the next one succeeds. -/
theorem searchLoop_found (last : Nat) (hlast : last ≤ 2 ^ 16) :
    ∀ (i n rounds : Nat) (l : Startup), n + i < last → i < rounds →
      (∀ j < i, l.outcomes.get j = false) → l.outcomes.get i = true →
      ∃ q, searchLoop (Int32.ofNat last) rounds (Int32.ofNat n) l = .ok (Int32.ofNat (n + i)) q ∧
        q.tried.map UInt16.toNat = l.tried.map UInt16.toNat ++ List.range' n (i + 1) ∧
        q.bound.map UInt16.toNat = some (n + i) := by
  intro i
  induction i with
  | zero =>
    intro n rounds l hn hrounds _ hsucc
    obtain ⟨rounds, rfl⟩ : ∃ r, rounds = r + 1 := ⟨rounds - 1, by omega⟩
    rw [Nat.add_zero] at hn ⊢
    refine ⟨_, searchLoop_succeeds hlast hn hsucc, tried_append (by omega), ?_⟩
    rw [granted, Option.map_some, htons_ofNat (by omega)]
    rfl
  | succ i ih =>
    intro n rounds l hn hrounds hfail hsucc
    obtain ⟨rounds, rfl⟩ : ∃ r, rounds = r + 1 := ⟨rounds - 1, by omega⟩
    obtain ⟨q, hq, htried, hbound⟩ := ih (n + 1) rounds (refused l (Int32.ofNat n))
      (by omega) (by omega) (fun j hj => hfail (j + 1) (Nat.succ_lt_succ hj)) hsucc
    have hsum : n + 1 + i = n + (i + 1) := by omega
    rw [hsum] at hq hbound
    refine ⟨q, ?_, ?_, hbound⟩
    · rw [searchLoop_fails hlast (by omega) (hfail 0 (Nat.succ_pos i))]
      exact hq
    · rw [htried, refused, tried_append (by omega), List.append_assoc]
      rfl

/-- The loop from `n`, when all the attempts that are left fail. -/
theorem searchLoop_none (last : Nat) (hlast : last ≤ 2 ^ 16) :
    ∀ (left n rounds : Nat) (l : Startup), n + left = last → left < rounds →
      (∀ j < left, l.outcomes.get j = false) →
      ∃ q, searchLoop (Int32.ofNat last) rounds (Int32.ofNat n) l = .ok 0 q ∧
        q.tried.map UInt16.toNat = l.tried.map UInt16.toNat ++ List.range' n left := by
  intro left
  induction left with
  | zero =>
    intro n rounds l hn hrounds _
    obtain ⟨rounds, rfl⟩ : ∃ r, rounds = r + 1 := ⟨rounds - 1, by omega⟩
    refine ⟨l, ?_, (List.append_nil _).symm⟩
    rw [searchLoop, if_neg (mt (below_iff hlast (by omega)).mp (by omega))]
    rfl
  | succ left ih =>
    intro n rounds l hn hrounds hfail
    obtain ⟨rounds, rfl⟩ : ∃ r, rounds = r + 1 := ⟨rounds - 1, by omega⟩
    obtain ⟨q, hq, htried⟩ := ih (n + 1) rounds (refused l (Int32.ofNat n)) (by omega) (by omega)
      fun j hj => hfail (j + 1) (Nat.succ_lt_succ hj)
    refine ⟨q, ?_, ?_⟩
    · rw [searchLoop_fails hlast (by omega) (hfail 0 (Nat.succ_pos left))]
      exact hq
    · rw [htried, refused, tried_append (by omega), List.append_assoc]
      rfl

end Loop

/-! ## A server -/

/-- The ports that are accepted. -/
theorem parseArgs_ok {outside : Int → Int32} {argv : List CString} {port : Int32}
    (h : parseArgs outside argv = .ok port) : ∃ n ≤ 65485, port = Int32.ofNat n := by
  unfold parseArgs at h
  split at h
  · split at h
    · cases h
    · dsimp only at h
      split at h
      · cases h
      next hrange =>
        cases h
        obtain ⟨hlow, hhigh⟩ := not_or.mp hrange
        rw [Int32.not_lt] at hlow
        rw [gt_iff_lt, Int32.not_lt, Int32.le_iff_toInt_le] at hhigh
        exact ⟨(storeInt outside _).toNatClampNeg, Int.toNat_le.mpr hhigh,
          (Int32.ofNat_toNatClampNeg _ hlow).symm⟩
  · cases h

/-- A number in the range is accepted as it is. -/
theorem parseArgs_of_scan {outside : Int → Int32} {name arg : CString} {n : Nat}
    (h : scanInt arg.bytes = some (n : Int)) (hn : n ≤ 65485) :
    parseArgs outside [name, arg] = .ok (Int32.ofNat n) := by
  have hstore : storeInt outside n = Int32.ofNat n := by
    rw [storeInt, if_pos (by omega), Int32.ofInt_eq_ofNat]
  have hlow : ¬Int32.ofNat n < 0 := by
    rw [ofNat_neg_iff (by omega)]
    omega
  have hhigh : ¬Int32.ofNat n > 65485 := by
    rw [gt_iff_lt, Int32.not_lt, Int32.le_iff_toInt_le, Int32.toInt_ofNat_of_lt (by omega)]
    exact Int.ofNat_le.mpr hn
  rw [parseArgs, h]
  dsimp only
  rw [hstore, if_neg (not_or.mpr ⟨hlow, hhigh⟩)]

section Server

variable {prepare : Int32 → C Startup Unit} {outside : Int → Int32} {argv : List CString}
  {n : Nat} {outcomes : Stream' Bool} {listens : Bool}

/-- Getting ready to serve cannot fail, and leaves the port as it is. -/
def Ready (prepare : Int32 → C Startup Unit) : Prop :=
  ∀ p l, ∃ q, prepare p l = .ok () q ∧ q.tried = l.tried ∧ q.bound = l.bound

theorem listenOn_ready : Ready listenOn := by
  intro p l
  cases h : l.listens with
  | true =>
    have hlisten : Clib.listen l = .ok true l := by rw [Clib.listen, h]
    exact ⟨l, bind_of_ok hlisten, rfl, rfl⟩
  | false =>
    have hlisten : Clib.listen l = .ok false l := by rw [Clib.listen, h]
    exact ⟨_, bind_of_ok hlisten, rfl, rfl⟩

theorem pure_ready : Ready fun _ => pure () := fun _ l => ⟨l, rfl, rfl, rfl⟩

theorem startServer_run (h : parseArgs outside argv = .ok (Int32.ofNat n)) (l : Startup) :
    startServer prepare outside argv l =
      (searchLoop (Int32.ofNat (n + 50)) 51 (Int32.ofNat n) >>= fun portFound =>
        if portFound = 0 then complain noPortMsg >>= fun _ => throw (Halt.exit 1)
        else prepare portFound) l := by
  rw [startServer, h, Int32.ofNat_add]
  rfl

/-- The first attempt to succeed, on another port than 0. -/
theorem startServer_found (hready : Ready prepare)
    (h : parseArgs outside argv = .ok (Int32.ofNat n)) (hn : n ≤ 65485) {i : Nat} (hi : i < 50)
    (hfail : ∀ j < i, outcomes.get j = false) (hsucc : outcomes.get i = true) (hpos : 0 < n + i) :
    ∃ q, startServer prepare outside argv (Startup.opened outcomes listens) = .ok () q ∧
      q.tried.map UInt16.toNat = List.range' n (i + 1) ∧
      q.bound.map UInt16.toNat = some (n + i) := by
  obtain ⟨q, hq, htried, hbound⟩ := searchLoop_found (n + 50) (by omega) i n 51
    (Startup.opened outcomes listens) (by omega) (by omega) hfail hsucc
  obtain ⟨r, hr, hrtried, hrbound⟩ := hready (Int32.ofNat (n + i)) q
  have hne : Int32.ofNat (n + i) ≠ 0 := by
    rw [ne_eq, ← Int32.toInt_inj, Int32.toInt_ofNat_of_lt (by omega), Int32.toInt_zero]
    omega
  refine ⟨r, ?_, by rw [hrtried, htried]; rfl, by rw [hrbound, hbound]⟩
  rw [startServer_run h, bind_of_ok hq, if_neg hne]
  exact hr

/-- A server that finds `port_found` to be 0. -/
theorem startServer_zero (h : parseArgs outside argv = .ok (Int32.ofNat n)) {l q : Startup}
    (hq : searchLoop (Int32.ofNat (n + 50)) 51 (Int32.ofNat n) l = .ok 0 q) :
    startServer prepare outside argv l
      = .error (.exit 1) { q with errors := q.errors ++ [noPortMsg] } := by
  rw [startServer_run h, bind_of_ok hq, if_pos rfl]
  rfl

theorem startServer_none (prepare : Int32 → C Startup Unit) (listens : Bool)
    (h : parseArgs outside argv = .ok (Int32.ofNat n)) (hn : n ≤ 65485)
    (hfail : ∀ i < 50, outcomes.get i = false) :
    ∃ q, startServer prepare outside argv (Startup.opened outcomes listens) = .error (.exit 1) q ∧
      q.tried.map UInt16.toNat = List.range' n 50 ∧ q.errors.getLast? = some noPortMsg := by
  obtain ⟨q, hq, htried⟩ := searchLoop_none (n + 50) (by omega) 50 n 51
    (Startup.opened outcomes listens) rfl (by omega) hfail
  exact ⟨_, startServer_zero h hq, htried, List.getLast?_concat⟩

/-- Port 0, got at once, is taken for none. -/
theorem startServer_confused (h : parseArgs outside argv = .ok (Int32.ofNat 0))
    (hsucc : outcomes.head = true) (q : Startup) :
    startServer prepare outside argv (Startup.opened outcomes listens) ≠ .ok () q := by
  obtain ⟨r, hr, -⟩ := searchLoop_found 50 (by omega) 0 0 51
    (Startup.opened outcomes listens) (by omega) (by omega)
    (fun j hj => absurd hj (Nat.not_lt_zero j)) hsucc
  rw [startServer_zero h hr]
  nofun

/-- The search is right if it ends with the first attempt that succeeds. -/
theorem searches_of_found {server : C Startup Unit}
    (hfound : ∀ i < 50, (∀ j < i, outcomes.get j = false) → outcomes.get i = true →
      ∃ q, server (Startup.opened outcomes listens) = .ok () q ∧
        q.tried.map UInt16.toNat = List.range' n (i + 1) ∧
        q.bound.map UInt16.toNat = some (n + i))
    (hex : ∃ i < 50, outcomes.get i = true) : SearchesPort server n outcomes listens := by
  obtain ⟨hi, hsucc⟩ := Nat.find_spec hex
  have hfirst : ∀ j < Nat.find hex, outcomes.get j = false := fun j hj =>
    Bool.eq_false_iff.mpr fun htrue => Nat.find_min hex hj ⟨by omega, htrue⟩
  obtain ⟨q, hq, htried, -⟩ := hfound _ hi hfirst hsucc
  refine ⟨⟨_, Nat.succ_le_of_lt hi, ?_⟩, iff_of_true ⟨q, hq⟩ hex, hfound, iff_of_false ?_ ?_⟩
  · rw [finalState, hq]
    exact htried
  · rintro ⟨r, hr, -⟩
    rw [hq] at hr
    cases hr
  · intro hall
    exact absurd hsucc (Bool.eq_false_iff.mp (hall _ hi))

/-- It is right if it gives up after fifty attempts that fail. -/
theorem searches_of_none {server : C Startup Unit} {q : Startup}
    (hall : ∀ i < 50, outcomes.get i = false)
    (hq : server (Startup.opened outcomes listens) = .error (.exit 1) q)
    (htried : q.tried.map UInt16.toNat = List.range' n 50)
    (hlast : q.errors.getLast? = some noPortMsg) : SearchesPort server n outcomes listens := by
  have hnone : ¬∃ i < 50, outcomes.get i = true := by
    rintro ⟨i, hi, hsucc⟩
    exact absurd hsucc (Bool.eq_false_iff.mp (hall i hi))
  refine ⟨⟨50, Nat.le_refl 50, ?_⟩, iff_of_false ?_ hnone, fun i hi _ hsucc => ?_,
    iff_of_true ⟨q, hq, hlast⟩ hall⟩
  · rw [finalState, hq]
    exact htried
  · rintro ⟨r, hr⟩
    rw [hq] at hr
    cases hr
  · exact absurd ⟨i, hi, hsucc⟩ hnone

/-- **When a server searches as it is to**, from a port that it accepts. -/
theorem startServer_searches_iff (hready : Ready prepare) (hn : n ≤ 65485)
    (h : parseArgs outside argv = .ok (Int32.ofNat n)) :
    SearchesPort (startServer prepare outside argv) n outcomes listens ↔
      n ≠ 0 ∨ outcomes.head = false := by
  constructor
  · intro hsearch
    by_contra hnot
    obtain ⟨hzero, hhead⟩ := not_or.mp hnot
    obtain rfl := not_not.mp hzero
    have hsucc := Bool.eq_true_of_not_eq_false hhead
    obtain ⟨q, hq⟩ := hsearch.serves.mpr ⟨0, by omega, hsucc⟩
    exact startServer_confused h hsucc q hq
  · intro hcond
    have hpos {i : Nat} (hsucc : outcomes.get i = true) : 0 < n + i := by
      refine Nat.pos_of_ne_zero fun h0 => ?_
      obtain ⟨rfl, rfl⟩ : n = 0 ∧ i = 0 := by omega
      rcases hcond with hne | hhead
      · exact hne rfl
      · exact absurd hsucc (Bool.eq_false_iff.mp hhead)
    by_cases hex : ∃ i < 50, outcomes.get i = true
    · exact searches_of_found (fun i hi hfail hsucc =>
        startServer_found hready h hn hi hfail hsucc (hpos hsucc)) hex
    · have hall : ∀ i < 50, outcomes.get i = false := fun i hi =>
        Bool.eq_false_iff.mpr fun htrue => hex ⟨i, hi, htrue⟩
      obtain ⟨q, hq, htried, hlast⟩ := startServer_none prepare listens h hn hall
      exact searches_of_none hall hq htried hlast

end Server

/-- The four servers differ in how they get ready. -/
theorem main_cases {main : (Int → Int32) → List CString → C Startup Unit}
    (h : main ∈ [V1.main, V1.Udp.main, V2.main, V2.Udp.main]) :
    ∃ prepare, Ready prepare ∧ main = startServer prepare := by
  simp only [List.mem_cons, List.not_mem_nil, or_false] at h
  rcases h with rfl | rfl | rfl | rfl
  · exact ⟨_, listenOn_ready, rfl⟩
  · exact ⟨_, pure_ready, rfl⟩
  · exact ⟨_, listenOn_ready, rfl⟩
  · exact ⟨_, pure_ready, rfl⟩

/-- **The four servers**: the port search is right for every outcome of the
attempts, unless port 0 is asked for and got. -/
theorem main_searches_iff (outside : Int → Int32) (argv : List CString) (port : Int32)
    (haccepted : parseArgs outside argv = .ok port) (outcomes : Stream' Bool) (listens : Bool) :
    ∀ main ∈ [V1.main, V1.Udp.main, V2.main, V2.Udp.main],
      SearchesPort (main outside argv) port.toInt.toNat outcomes listens ↔
        port ≠ 0 ∨ outcomes.head = false := by
  obtain ⟨n, hn, rfl⟩ := parseArgs_ok haccepted
  have hport : (Int32.ofNat n).toInt = n := Int32.toInt_ofNat_of_lt (by omega)
  have hzero : Int32.ofNat n ≠ 0 ↔ n ≠ 0 := by
    rw [ne_eq, ← Int32.toInt_inj, hport, Int32.toInt_zero]
    omega
  intro main hmain
  obtain ⟨prepare, hready, rfl⟩ := main_cases hmain
  rw [hport, Int.toNat_natCast, hzero]
  exact startServer_searches_iff hready hn haccepted

/-- From port 8080, where the first two attempts fail. -/
theorem main_searches_8080 :
    SearchesPort (V1.main longToInt [⟨ascii "./server", by decide⟩, ⟨ascii "8080", by decide⟩]) 8080
      (Stream'.cons false (Stream'.cons false (Stream'.const true))) true :=
  (main_searches_iff longToInt [⟨ascii "./server", by decide⟩, ⟨ascii "8080", by decide⟩] 8080
    (parseArgs_of_scan (n := 8080) (by decide) (by decide))
    (Stream'.cons false (Stream'.cons false (Stream'.const true))) true V1.main
    (List.mem_cons_self ..)).mpr (Or.inr rfl)

/-- With port 0 and a first attempt that succeeds, the search is not right. -/
theorem main_gives_up_zero :
    ¬SearchesPort (V1.main longToInt [⟨ascii "./server", by decide⟩, ⟨ascii "0", by decide⟩]) 0
      (Stream'.const true) true := by
  intro hsearch
  obtain ⟨q, hq⟩ := hsearch.serves.mpr ⟨0, by decide, rfl⟩
  exact startServer_confused (parseArgs_of_scan (n := 0) (by decide) (by decide)) rfl q hq

end StateProtocol
