import StateProtocol.V1.Client

/-!
# The receive buffer of the version 1 client

Each call of `recv` may hand out as many bytes as the header announced, whatever
has come before, and the check for too long a payload comes after the call. So a
server that sends more than it has announced can have the surplus put behind the
buffer: it takes a first piece that is shorter than announced. A length of 2³²-1
needs no more than a first byte, as the buffer then has size 0.

`Fits` is the condition on the pieces under which that does not happen, and
`receivePayload_inside_iff` says that there is no other.
-/

namespace StateProtocol.V1

open StateProtocol.Clib

/-- Call number `j` finds a free place for what it hands out. The call is made
when less than announced has come before and no earlier piece was so large that
its count was negative; it puts its bytes behind those before it, as far as the
sum of them is an `int`. -/
def Fits (len : UInt32) (avail : Nat) (chunks : Stream' Nat) (j : Nat) : Prop :=
  let arrived := received len.toNat avail chunks
  arrived j < len.toNat → (∀ i < j, arrived (i + 1) - arrived i < 2 ^ 31) →
    arrived j < arrived (j + 1) → arrived j < 2 ^ 31 ∧ arrived (j + 1) ≤ allocated len

section

variable {len : UInt32} {s : Bytes} {chunks : Stream' Nat} {c : Client} {j : Nat}

/-- Behind the end of the stream everything fits. -/
theorem fits_of_stop {k : Nat} (hjk : j ≤ k)
    (h : received len.toNat s.length chunks (j + 1) = received len.toNat s.length chunks j) :
    Fits len s.length chunks k := by
  intro hlive _ hsome
  have hstop := received_stop (by omega) hjk h
  omega

/-- So does what comes when the announced length has been reached. -/
theorem fits_of_full {k : Nat} (hjk : j ≤ k)
    (h : len.toNat ≤ received len.toNat s.length chunks j) : Fits len s.length chunks k := by
  intro hlive
  have hmono := received_mono len.toNat s.length chunks hjk
  omega

/-- And what would come after a piece whose count is negative. -/
theorem fits_of_negative {k : Nat} (hjk : j < k)
    (h : 2 ^ 31 ≤ received len.toNat s.length chunks (j + 1)
      - received len.toNat s.length chunks j) : Fits len s.length chunks k := by
  intro _ hcounts
  have hcount := hcounts j hjk
  omega

/-- The calls from one on are that call and those after it. -/
theorem fits_from :
    (∀ k, j ≤ k → Fits len s.length chunks k) ↔
      Fits len s.length chunks j ∧ ∀ k, j + 1 ≤ k → Fits len s.length chunks k := by
  constructor
  · intro hall
    exact ⟨hall j (Nat.le_refl j), fun k hk => hall k (Nat.le_of_succ_le hk)⟩
  · rintro ⟨hj, hafter⟩ k hk
    rcases hk.eq_or_lt with rfl | hjk
    · exact hj
    · exact hafter k hjk

/-- What call number `j` hands out. -/
theorem recv_received (hin : c.proc.input = s.drop (received len.toNat s.length chunks j))
    (hchunks : c.chunks = chunks.drop j)
    (hopen : ¬(c.proc.input = [] ∧ c.proc.broken = true)) :
    ∃ bs d, recv len.toNat c = .ok (some bs) d ∧
      s.take (received len.toNat s.length chunks j) ++ bs
        = s.take (received len.toNat s.length chunks (j + 1)) ∧
      d.proc.input = s.drop (received len.toNat s.length chunks (j + 1)) ∧
      d.chunks = chunks.drop (j + 1) := by
  have hstep : received len.toNat s.length chunks (j + 1)
      = received len.toNat s.length chunks j + min (min (chunks.get j + 1) len.toNat)
        (s.drop (received len.toNat s.length chunks j)).length := by
    rw [List.length_drop]
    rfl
  refine ⟨_, _, recv_run len.toNat hopen, ?_, ?_, ?_⟩
  · rw [hin, hchunks, Stream'.head_drop, hstep, List.take_add, ← List.take_eq_take_min]
  · show c.proc.input.drop _ = _
    rw [hin, hchunks, Stream'.head_drop, List.drop_eq_drop_min, List.drop_drop, hstep]
  · show c.chunks.tail = _
    rw [hchunks, Stream'.tail_drop']

/-- The client before call number `j`. -/
structure AtCall (len : UInt32) (s : Bytes) (chunks : Stream' Nat) (c : Client) (j : Nat) :
    Prop where
  input : c.proc.input = s.drop (received len.toNat s.length chunks j)
  pieces : c.chunks = chunks.drop j
  live : received len.toNat s.length chunks j < len.toNat ∨
    received len.toNat s.length chunks j = 0
  counts : ∀ i < j, received len.toNat s.length chunks (i + 1)
    - received len.toNat s.length chunks i < 2 ^ 31
  room : received len.toNat s.length chunks j ≤ allocated len

/-- A call that hands something out is not at the end of the stream. -/
theorem AtCall.not_ended (h : AtCall len s chunks c j)
    (hsome : received len.toNat s.length chunks j < received len.toNat s.length chunks (j + 1)) :
    ¬(c.proc.input = [] ∧ c.proc.broken = true) := by
  rintro ⟨hnil, -⟩
  have hend := received_le len.toNat s.length chunks (j + 1)
  rw [h.input, List.drop_eq_nil_iff] at hnil
  omega

/-- The buffer before that call. -/
def buffer (len : UInt32) (s : Bytes) (chunks : Stream' Nat) (j : Nat) :
    List.Vector UInt8 (allocated len) :=
  zeroPad (allocated len) (s.take (received len.toNat s.length chunks j))

theorem take_received_length (j : Nat) :
    (s.take (received len.toNat s.length chunks j)).length
      = received len.toNat s.length chunks j :=
  List.length_take_of_le (received_le _ _ _ j)

/-- The round of call number `j`, if what it hands out fits. -/
theorem receiveLoop_round (calls : Nat) (h : AtCall len s chunks c j)
    (hopen : ¬(c.proc.input = [] ∧ c.proc.broken = true))
    (hpre : received len.toNat s.length chunks j < received len.toNat s.length chunks (j + 1) →
      received len.toNat s.length chunks j < 2 ^ 31)
    (hroom : received len.toNat s.length chunks (j + 1) ≤ allocated len) :
    ∃ (bs : Bytes) (d : Client),
      d.proc.input = s.drop (received len.toNat s.length chunks (j + 1)) ∧
      d.chunks = chunks.drop (j + 1) ∧
      received len.toNat s.length chunks j + bs.length
        = received len.toNat s.length chunks (j + 1) ∧
      receiveLoop len (calls + 1) (Int32.ofNat (received len.toNat s.length chunks j))
        (buffer len s chunks j) c =
        if 2 ^ 31 ≤ bs.length then .error (.exit 1) d
        else if received len.toNat s.length chunks (j + 1) = len.toNat then
          .ok (buffer len s chunks (j + 1)) d
        else if bs = [] ∧ received len.toNat s.length chunks (j + 1) < len.toNat then
          .error (.exit 1) d
        else if len.toNat < received len.toNat s.length chunks (j + 1) then .error (.exit 1) d
        else receiveLoop len calls (Int32.ofNat (received len.toNat s.length chunks (j + 1)))
          (buffer len s chunks (j + 1)) d := by
  obtain ⟨bs, d, hrecv, hbs, hinput, hpieces⟩ := recv_received h.input h.pieces hopen
  have hlen := congrArg List.length hbs
  rw [List.length_append, take_received_length, take_received_length] at hlen
  have hround := receiveLoop_chunk (n := allocated len)
    (s.take (received len.toNat s.length chunks j)) calls hrecv (fun hne => ?_)
    (by rw [take_received_length, hlen]; exact hroom) (UInt32.toNat_lt _)
  · rw [hbs, take_received_length, take_received_length] at hround
    exact ⟨bs, d, hinput, hpieces, hlen, hround⟩
  · have hpos := List.length_pos_iff.mpr hne
    rw [take_received_length]
    exact hpre (by omega)

/-- A call that hands out nothing ends the loop without a fault. -/
theorem receiveLoop_stop (calls : Nat) (h : AtCall len s chunks c j)
    (hstop : received len.toNat s.length chunks (j + 1) = received len.toNat s.length chunks j)
    (t : Client) :
    receiveLoop len (calls + 1) (Int32.ofNat (received len.toNat s.length chunks j))
      (buffer len s chunks j) c ≠ .error .fault t := by
  intro hfault
  by_cases hopen : c.proc.input = [] ∧ c.proc.broken = true
  · rw [receiveLoop, bind_of_ok (recv_broken len.toNat hopen)] at hfault
    cases hfault
  · obtain ⟨bs, d, -, -, hlen, hround⟩ := receiveLoop_round calls h hopen (by omega)
      (hstop ▸ h.room)
    have hbs : bs = [] := List.length_eq_zero_iff.mp (by omega)
    have hlive := h.live
    rw [hround, hbs, if_neg (by decide)] at hfault
    split at hfault
    · cases hfault
    · rw [if_pos ⟨rfl, by omega⟩] at hfault
      cases hfault

/-- A call whose bytes do not fit is a fault. -/
theorem receiveLoop_fault (calls : Nat) (h : AtCall len s chunks c j)
    (hsome : received len.toNat s.length chunks j < received len.toNat s.length chunks (j + 1))
    (hfit : ¬(received len.toNat s.length chunks j < 2 ^ 31 ∧
      received len.toNat s.length chunks (j + 1) ≤ allocated len)) :
    ∃ t, receiveLoop len (calls + 1) (Int32.ofNat (received len.toNat s.length chunks j))
      (buffer len s chunks j) c = .error .fault t := by
  have hend := received_le len.toNat s.length chunks (j + 1)
  have hsize : received len.toNat s.length chunks j < 2 ^ 32 :=
    h.room.trans_lt (UInt32.toNat_lt _)
  obtain ⟨bs, d, hrecv, hbs, -, -⟩ := recv_received h.input h.pieces (h.not_ended hsome)
  have hlen := congrArg List.length hbs
  rw [List.length_append, take_received_length, take_received_length] at hlen
  have hne : bs ≠ [] := by
    rintro rfl
    rw [List.length_nil] at hlen
    omega
  have hstore : storeFrom (buffer len s chunks j)
      (Int32.ofNat (received len.toNat s.length chunks j)).toInt bs d = .error .fault d := by
    refine storeFrom_fault bs _ _ d hne ?_
    by_cases hsmall : received len.toNat s.length chunks j < 2 ^ 31
    · rw [Int32.toInt_ofNat_of_lt hsmall]
      omega
    · refine Or.inl ?_
      have hneg := (ofNat_neg_iff hsize).mpr (Nat.not_lt.mp hsmall)
      rwa [Int32.lt_iff_toInt_lt, Int32.toInt_zero] at hneg
  refine ⟨d, ?_⟩
  rw [receiveLoop, bind_of_ok hrecv]
  exact bind_of_error hstore

/-- From any call on: no fault means that everything fits. -/
theorem receiveLoop_inside_iff : ∀ (calls j : Nat) (c : Client), AtCall len s chunks c j →
    s.length - received len.toNat s.length chunks j < calls →
    ((∀ t, receiveLoop len calls (Int32.ofNat (received len.toNat s.length chunks j))
      (buffer len s chunks j) c ≠ .error .fault t) ↔
      ∀ k, j ≤ k → Fits len s.length chunks k) := by
  intro calls
  induction calls with
  | zero =>
    intro j c _ hcalls
    exact absurd hcalls (Nat.not_lt_zero _)
  | succ calls ih =>
    intro j c h hcalls
    have hstep := received_le_succ len.toNat s.length chunks j
    have hend := received_le len.toNat s.length chunks (j + 1)
    have hasked := received_succ_le len.toNat s.length chunks j
    have hsize : allocated len < 2 ^ 32 := UInt32.toNat_lt _
    rcases hstep.eq_or_lt with hstop | hsome
    · exact iff_of_true (receiveLoop_stop calls h hstop.symm) fun k hk => fits_of_stop hk hstop.symm
    · have hlive : received len.toNat s.length chunks j < len.toNat := by
        have := h.live
        omega
      by_cases hfit : received len.toNat s.length chunks j < 2 ^ 31 ∧
          received len.toNat s.length chunks (j + 1) ≤ allocated len
      · have hj : Fits len s.length chunks j := fun _ _ _ => hfit
        obtain ⟨bs, d, hinput, hpieces, hlen, hround⟩ :=
          receiveLoop_round calls h (h.not_ended hsome) (fun _ => hfit.1) hfit.2
        rw [hround]
        by_cases hbig : 2 ^ 31 ≤ bs.length
        · -- the count is negative, and no call follows
          rw [if_pos hbig]
          have hafter : ∀ k, j + 1 ≤ k → Fits len s.length chunks k :=
            fun k hk => fits_of_negative hk (by omega)
          refine iff_of_true ?_ (fits_from.mpr ⟨hj, hafter⟩)
          intro t hfault
          cases hfault
        · rw [if_neg hbig]
          by_cases hfull : len.toNat ≤ received len.toNat s.length chunks (j + 1)
          · -- the announced length is reached, or passed
            have hafter : ∀ k, j + 1 ≤ k → Fits len s.length chunks k :=
              fun k hk => fits_of_full hk hfull
            refine iff_of_true ?_ (fits_from.mpr ⟨hj, hafter⟩)
            intro t hfault
            split at hfault
            · cases hfault
            · split at hfault
              · cases hfault
              · rw [if_pos (by omega)] at hfault
                cases hfault
          · -- the loop goes on
            have hne : ¬(bs = [] ∧ received len.toNat s.length chunks (j + 1) < len.toNat) := by
              rintro ⟨rfl, -⟩
              rw [List.length_nil] at hlen
              omega
            have hnext : AtCall len s chunks d (j + 1) := by
              refine ⟨hinput, hpieces, Or.inl (by omega), fun i hi => ?_, hfit.2⟩
              rcases (Nat.le_of_lt_succ hi).eq_or_lt with rfl | hij
              · omega
              · exact h.counts i hij
            rw [if_neg (by omega), if_neg hne, if_neg (by omega), fits_from, and_iff_right hj]
            exact ih (j + 1) d hnext (by omega)
      · obtain ⟨t, ht⟩ := receiveLoop_fault calls h hsome hfit
        refine iff_of_false (fun hall => hall t ht) ?_
        intro hall
        exact hfit ((fits_from.mp hall).1 hlive h.counts hsome)

end

/-- For the lengths that are positive as an `int`, only the end of each piece
matters: it may be at most one byte past the announced length. -/
theorem fits_iff {len : UInt32} {avail : Nat} {chunks : Stream' Nat} (hlen : len.toNat < 2 ^ 31)
    (j : Nat) : Fits len avail chunks j ↔
      (received len.toNat avail chunks j < len.toNat →
        received len.toNat avail chunks (j + 1) ≤ len.toNat + 1) := by
  have hroom := allocated_eq len (by omega)
  have hstep := received_le_succ len.toNat avail chunks j
  constructor
  · intro hfits hlive
    rcases hstep.eq_or_lt with hstop | hsome
    · omega
    · have hcounts : ∀ i < j, received len.toNat avail chunks (i + 1)
          - received len.toNat avail chunks i < 2 ^ 31 := by
        intro i _
        have := received_succ_le len.toNat avail chunks i
        omega
      exact (hfits hlive hcounts hsome).2.trans hroom.le
  · intro hends hlive _ _
    exact ⟨by omega, (hends hlive).trans hroom.ge⟩

/-- **When the client stays inside its buffer.** -/
theorem receivePayload_inside_iff (len : UInt32) (c : Client) :
    (∀ t, receivePayload len c ≠ .error .fault t) ↔
      ∀ j, Fits len c.proc.input.length c.chunks j := by
  have hstart : AtCall len c.proc.input c.chunks c 0 :=
    ⟨rfl, rfl, Or.inr rfl, fun _ hi => absurd hi (Nat.not_lt_zero _), Nat.zero_le _⟩
  refine (receiveLoop_inside_iff (c.proc.input.length + 1) 0 c hstart
    (Nat.lt_succ_self _)).trans ?_
  exact ⟨fun hall j => hall j (Nat.zero_le j), fun hall j _ => hall j⟩

/-- Three bytes are announced and five are sent, the first two of them ahead. -/
theorem receivePayload_overrun :
    ∃ t, receivePayload 3 (Client.started [65, 66, 67, 68, 69] [] (fun j => j + 1)
      (RoomyDisk.empty 0).disk) = .error .fault t := ⟨_, rfl⟩

end StateProtocol.V1
