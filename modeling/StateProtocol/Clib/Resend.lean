import StateProtocol.Clib.Transmit

/-!
# Loops that send the start of their buffer again

A loop of this kind counts the bytes that have been moved and ends when the
count is the length of the buffer, but every call passes the start of the
buffer. `Resends` is what such a loop does at each answer of the kernel but -1.

`Transmits` is what its peer expects: a prefix of the message at every moment,
the whole message once if no call fails, and the end of the process as soon as
one does. The loop keeps that against exactly those schedules where the bytes it
sends again are the ones that come next (`Repeats`); one that goes on after a
failed call needs that none fails, too (`Unfailing`). Both results come from one
induction on what is left to be counted (`transmits_iff_of_fail`).
-/

namespace StateProtocol.Clib

/-- Transmission of `message` by `x`, started in `p`, under the kernel `σ`. -/
structure Transmits (x : C Proc Unit) (p : Proc) (message : Bytes) (σ : Stream' Offer) : Prop where
  /-- At every moment the connection carries a prefix of the message. -/
  inOrder : ∀ t, sentAfter x p σ t <+: p.sent ++ message
  /-- If no call fails, the sender returns and the whole message is out. -/
  complete : (∀ t, Waiting x p σ t → σ.get t ≠ .fail) →
    ∃ t q, x (p.withOffers σ t) = .ok () q ∧ q.sent = p.sent ++ message
  /-- A failed call ends the process. -/
  stops : ∀ t, Waiting x p σ t → σ.get t = .fail →
    ∃ q, x (p.withOffers σ (t + 1)) = .error (.exit 1) q

/-! ## Schedules -/

/-- How many of `size` bytes the call moves. -/
def Offer.count (size : Nat) : Offer → Nat
  | .room k => min (k + 1) size
  | .fail => 0

/-- How many bytes the first `i` calls move, each asked for `size`. -/
def moved (size : Nat) (σ : Stream' Offer) : (i : Nat) → Nat
  | 0 => 0
  | i + 1 => moved size σ i + (σ.get i).count size

/-- With `n` bytes counted, call `i` is still due: no call has failed before, and
the count is not full. -/
def Due (size n : Nat) (σ : Stream' Offer) (i : Nat) : Prop :=
  (∀ j < i, σ.get j ≠ .fail) ∧ n + moved size σ i < size

/-- The start of the message, which every call passes, is at each of them also
what comes next. -/
def Repeats (message : Bytes) (n : Nat) (σ : Stream' Offer) : Prop :=
  ∀ i k, Due message.length n σ i → σ.get i = .room k →
    message.take (k + 1) <+: message.drop (n + moved message.length σ i)

/-- No call fails that is due. -/
def Unfailing (size n : Nat) (σ : Stream' Offer) : Prop :=
  ∀ i, Due size n σ i → σ.get i ≠ .fail

section Schedules

variable {size n k : Nat} {σ : Stream' Offer} {message : Bytes}

theorem moved_succ (size : Nat) (σ : Stream' Offer) (i : Nat) :
    moved size σ (i + 1) = σ.head.count size + moved size σ.tail i := by
  induction i with
  | zero => exact Nat.add_comm _ _
  | succ i ih =>
    rw [moved, ih, moved, Nat.add_assoc]
    rfl

theorem due_zero : Due size n σ 0 ↔ n < size :=
  ⟨fun h => h.2, fun h => ⟨fun _ hj => absurd hj (Nat.not_lt_zero _), h⟩⟩

theorem due_succ {i : Nat} :
    Due size n σ (i + 1) ↔ σ.head ≠ .fail ∧ Due size (n + σ.head.count size) σ.tail i := by
  unfold Due
  rw [moved_succ, ← Nat.add_assoc]
  constructor
  · rintro ⟨hok, hlt⟩
    exact ⟨hok 0 (Nat.succ_pos i), fun j hj => hok (j + 1) (Nat.succ_lt_succ hj), hlt⟩
  · rintro ⟨hfirst, hok, hlt⟩
    refine ⟨fun j hj => ?_, hlt⟩
    cases j with
    | zero => exact hfirst
    | succ j => exact hok j (Nat.lt_of_succ_lt_succ hj)

theorem due_le {i : Nat} (h : Due size n σ i) : n < size := by
  have := h.2
  omega

theorem repeats_full (h : message.length ≤ n) : Repeats message n σ := fun _ _ hdue =>
  absurd (due_le hdue) (Nat.not_lt.mpr h)

theorem repeats_fail (h : σ.head = .fail) : Repeats message n σ := by
  intro i k hdue hk
  cases i with
  | zero =>
    have hroom : σ.head = .room k := hk
    rw [h] at hroom
    cases hroom
  | succ i => exact absurd h (due_succ.mp hdue).1

theorem repeats_room (h : σ.head = .room k) (hn : n < message.length) :
    Repeats message n σ ↔ message.take (k + 1) <+: message.drop n ∧
      Repeats message (n + min (k + 1) message.length) σ.tail := by
  have hcount : σ.head.count message.length = min (k + 1) message.length := by rw [h, Offer.count]
  constructor
  · intro hall
    refine ⟨hall 0 k (due_zero.mpr hn) h, fun i j hdue hj => ?_⟩
    rw [← hcount] at hdue ⊢
    have hnext := hall (i + 1) j (due_succ.mpr ⟨by simp [h], hdue⟩) hj
    rw [moved_succ, ← Nat.add_assoc] at hnext
    exact hnext
  · rintro ⟨hfirst, hrest⟩ i j hdue hj
    cases i with
    | zero =>
      obtain rfl : k = j := Offer.room.inj (h.symm.trans hj)
      exact hfirst
    | succ i =>
      have hdue := (due_succ.mp hdue).2
      rw [hcount] at hdue
      have hnext := hrest i j hdue hj
      rw [moved_succ, ← Nat.add_assoc, hcount]
      exact hnext

theorem unfailing_full (h : size ≤ n) : Unfailing size n σ := fun _ hdue =>
  absurd (due_le hdue) (Nat.not_lt.mpr h)

theorem not_unfailing (h : σ.head = .fail) (hn : n < size) : ¬Unfailing size n σ := fun hall =>
  hall 0 (due_zero.mpr hn) h

theorem unfailing_room (h : σ.head = .room k) :
    Unfailing size n σ ↔ Unfailing size (n + min (k + 1) size) σ.tail := by
  have hcount : σ.head.count size = min (k + 1) size := by rw [h, Offer.count]
  rw [← hcount]
  constructor
  · intro hall i hdue
    exact hall (i + 1) (due_succ.mpr ⟨by simp [h], hdue⟩)
  · intro hrest i hdue
    cases i with
    | zero =>
      show σ.head ≠ .fail
      simp [h]
    | succ i => exact hrest i (due_succ.mp hdue).2

end Schedules

/-- Only the first call moves anything, if at all: it fails, takes everything, or
is followed by one that fails. -/
def Single (size : Nat) (σ : Stream' Offer) : Prop :=
  σ.head = .fail ∨ σ.head.Whole size ∨ σ.get 1 = .fail

theorem Single.repeats {message : Bytes} {σ : Stream' Offer} (h : Single message.length σ) :
    Repeats message 0 σ := by
  intro i k hdue hk
  cases i with
  | zero =>
    rw [moved, Nat.add_zero, List.drop_zero]
    exact List.take_prefix _ message
  | succ i =>
    obtain ⟨hfirst, hrest⟩ := due_succ.mp hdue
    rcases h with hfail | ⟨j, hj, hwhole⟩ | hfail
    · exact absurd hfail hfirst
    · rw [hj, Offer.count, Nat.min_eq_right hwhole] at hrest
      exact absurd (due_le hrest) (by omega)
    · cases i with
      | zero =>
        have hroom : σ.get 1 = .room k := hk
        rw [hfail] at hroom
        cases hroom
      | succ i => exact absurd hfail (hdue.1 1 (by omega))

theorem Repeats.single {b : UInt8} {rest : Bytes} {σ : Stream' Offer} (hb : b ∉ rest)
    (h : Repeats (b :: rest) 0 σ) : Single (b :: rest).length σ := by
  cases hhead : σ.head with
  | fail => exact Or.inl hhead
  | room k =>
    refine Or.inr ?_
    by_cases hwhole : (b :: rest).length ≤ k + 1
    · exact Or.inl ⟨k, hhead, hwhole⟩
    · refine Or.inr ?_
      cases hnext : σ.get 1 with
      | fail => rfl
      | room j =>
        -- the second call sends the first byte where another one is due
        have hcount : moved (b :: rest).length σ 1 = k + 1 := by
          show 0 + σ.head.count (b :: rest).length = k + 1
          rw [hhead, Offer.count]
          omega
        have hdue : Due (b :: rest).length 0 σ 1 := by
          refine due_succ.mpr ⟨by simp [hhead], due_zero.mpr ?_⟩
          rw [hhead, Offer.count]
          omega
        have hagain := h 1 j hdue hnext
        rw [hcount, Nat.zero_add, List.drop_succ_cons, List.take_succ_cons] at hagain
        exact absurd (List.mem_of_mem_drop (hagain.subset (List.mem_cons_self ..))) hb

/-! ## The loops -/

/-- `loop n` is the loop with `n` bytes counted: a call that moves bytes takes
them from the start of `buf`. -/
structure Resends (buf : Bytes) (loop : Nat → C Proc Unit) : Prop where
  blocked : ∀ {n : Nat} {p : Proc}, p.offers = [] → loop n p = .error .blocked p
  room : ∀ {n k : Nat} {p : Proc} {os : List Offer}, p.offers = .room k :: os →
    loop n p =
      if n + min (k + 1) buf.length = buf.length then
        .ok () { p with sent := p.sent ++ buf.take (k + 1), offers := os }
      else loop (n + min (k + 1) buf.length)
        { p with sent := p.sent ++ buf.take (k + 1), offers := os }

section Loops

variable {x y : C Proc Unit} {p q : Proc} {σ : Stream' Offer} {buf rest : Bytes}

/-- One call that does not fail, and the transmission of what is left. -/
theorem Transmits.step {left : Bytes} (hblocked : x (p.withOffers σ 0) = .error .blocked
      (p.withOffers σ 0)) (hx : ∀ t, x (p.withOffers σ (t + 1)) = y (q.withOffers σ.tail t))
    (hhead : σ.head ≠ .fail) (hwhole : p.sent ++ rest = q.sent ++ left) :
    Transmits x p rest σ ↔ Transmits y q left σ.tail := by
  have hsent (t : Nat) : sentAfter x p σ (t + 1) = sentAfter y q σ.tail t := by
    rw [sentAfter, sentAfter, finalState, finalState, hx]
  have hwaiting (t : Nat) : Waiting x p σ (t + 1) ↔ Waiting y q σ.tail t := by
    rw [Waiting, Waiting, hx]
  constructor
  · intro h
    refine ⟨fun t => ?_, fun hok => ?_, fun t hwait hfail => ?_⟩
    · rw [← hsent, ← hwhole]
      exact h.inOrder (t + 1)
    · obtain ⟨t, r, hr, hall⟩ := h.complete fun t => by
        cases t with
        | zero => exact fun _ => hhead
        | succ t => exact fun hwait => hok t ((hwaiting t).mp hwait)
      cases t with
      | zero =>
        rw [hblocked] at hr
        cases hr
      | succ t => exact ⟨t, r, (hx t).symm.trans hr, hall.trans hwhole⟩
    · rw [← hx]
      exact h.stops (t + 1) ((hwaiting t).mpr hwait) hfail
  · intro h
    refine ⟨fun t => ?_, fun hok => ?_, fun t hwait hfail => ?_⟩
    · cases t with
      | zero =>
        rw [sentAfter, finalState_of_error hblocked]
        exact List.prefix_append p.sent rest
      | succ t =>
        rw [hsent, hwhole]
        exact h.inOrder t
    · obtain ⟨t, r, hr, hall⟩ := h.complete fun t hwait => hok (t + 1) ((hwaiting t).mpr hwait)
      exact ⟨t + 1, r, (hx t).trans hr, hall.trans hwhole.symm⟩
    · cases t with
      | zero => exact absurd hfail hhead
      | succ t =>
        rw [hx]
        exact h.stops t ((hwaiting t).mp hwait) hfail

variable {loop : Nat → C Proc Unit} {n k : Nat}

theorem Resends.withOffers (h : Resends buf loop) (hhead : σ.head = .room k) (t : Nat) :
    loop n (p.withOffers σ (t + 1)) =
      if n + min (k + 1) buf.length = buf.length then
        .ok () ({ p with sent := p.sent ++ buf.take (k + 1) }.withOffers σ.tail t)
      else loop (n + min (k + 1) buf.length)
        ({ p with sent := p.sent ++ buf.take (k + 1) }.withOffers σ.tail t) := by
  have hos : (p.withOffers σ (t + 1)).offers = .room k :: σ.tail.take t := by
    rw [← hhead]
    exact Stream'.take_succ t σ
  exact h.room hos

/-- A call puts its bytes on the connection, whatever the loop does then. -/
theorem Resends.sent_one (h : Resends buf loop) (hhead : σ.head = .room k) :
    sentAfter (loop n) p σ 1 = p.sent ++ buf.take (k + 1) := by
  rw [sentAfter, finalState, h.withOffers hhead]
  split
  next hok =>
    split at hok
    · cases hok
      rfl
    · rw [h.blocked rfl] at hok
      cases hok
  next herror =>
    split at herror
    · cases herror
    · rw [h.blocked rfl] at herror
      cases herror
      rfl

/-- The call that fills the count is the last. -/
theorem Resends.transmits_last (h : Resends buf loop) (hhead : σ.head = .room k)
    (hfull : n + min (k + 1) buf.length = buf.length) (hbytes : buf.take (k + 1) = rest) :
    Transmits (loop n) p rest σ := by
  have hrun (t : Nat) : loop n (p.withOffers σ (t + 1))
      = .ok () ({ p with sent := p.sent ++ rest }.withOffers σ.tail t) := by
    rw [h.withOffers hhead, if_pos hfull, hbytes]
  have hwait (t : Nat) : ¬Waiting (loop n) p σ (t + 1) := by
    rintro ⟨q, hq⟩
    rw [hrun] at hq
    cases hq
  refine ⟨fun t => ?_, fun _ => ⟨1, _, hrun 0, rfl⟩, fun t hw hfail => ?_⟩
  · cases t with
    | zero =>
      rw [sentAfter, finalState_of_error (h.blocked rfl)]
      exact List.prefix_append p.sent rest
    | succ t =>
      rw [sentAfter, finalState, hrun]
      exact List.prefix_rfl
  · cases t with
    | zero =>
      have hhead' : σ.head = .fail := hfail
      rw [hhead] at hhead'
      cases hhead'
    | succ t => exact absurd hw (hwait t)

/-- The induction for both kinds of loops: `ends` is whether a failed call ends
the process. -/
theorem Resends.transmits_iff_of_fail (h : Resends buf loop) {ends : Prop}
    (hends : ∀ (n : Nat) (p : Proc) (rest : Bytes) (σ : Stream' Offer), σ.head = .fail →
      (Transmits (loop n) p rest σ ↔ ends)) :
    ∀ (left n : Nat) (p : Proc) (σ : Stream' Offer), n < buf.length → buf.length - n ≤ left →
      (Transmits (loop n) p (buf.drop n) σ ↔
        Repeats buf n σ ∧ (¬ends → Unfailing buf.length n σ)) := by
  intro left
  induction left with
  | zero =>
    intro n p σ hn hleft
    omega
  | succ left ih =>
    intro n p σ hn hleft
    cases hhead : σ.head with
    | fail =>
      rw [hends n p _ σ hhead]
      constructor
      · intro hend
        exact ⟨repeats_fail hhead, fun hnot => absurd hend hnot⟩
      · rintro ⟨-, hfail⟩
        exact not_imp_comm.mp hfail (not_unfailing hhead hn)
    | room k =>
      rw [repeats_room hhead hn, unfailing_room hhead]
      by_cases hbytes : buf.take (k + 1) <+: buf.drop n
      · have hle : min (k + 1) buf.length ≤ buf.length - n := by
          have := hbytes.length_le
          rwa [List.length_take, List.length_drop] at this
        have hpiece : buf.take (k + 1) = (buf.drop n).take (min (k + 1) buf.length) := by
          have := List.prefix_iff_eq_take.mp hbytes
          rwa [List.length_take] at this
        by_cases hfull : n + min (k + 1) buf.length = buf.length
        · rw [and_iff_right hbytes, hfull]
          refine iff_of_true (h.transmits_last hhead hfull ?_)
            ⟨repeats_full (Nat.le_refl _), fun _ => unfailing_full (Nat.le_refl _)⟩
          rw [hpiece, List.take_of_length_le]
          rw [List.length_drop]
          omega
        · have hwhole : p.sent ++ buf.drop n
              = (p.sent ++ buf.take (k + 1)) ++ buf.drop (n + min (k + 1) buf.length) := by
            rw [List.append_assoc, hpiece, ← List.drop_drop, List.take_append_drop]
          rw [and_iff_right hbytes, ← ih (n + min (k + 1) buf.length)
            { p with sent := p.sent ++ buf.take (k + 1) } σ.tail (by omega) (by omega)]
          refine Transmits.step (h.blocked rfl) (fun t => ?_) (by simp [hhead]) hwhole
          rw [h.withOffers hhead, if_neg hfull]
      · -- the first call already sends something else
        refine iff_of_false (fun htrans => hbytes ?_) fun hall => hbytes hall.1.1
        have hprefix := htrans.inOrder 1
        rw [h.sent_one hhead] at hprefix
        exact (List.prefix_append_right_inj p.sent).mp hprefix

/-- A loop that ends the process when a call fails. -/
theorem Resends.transmits_iff (h : Resends buf loop) (hbuf : buf ≠ [])
    (hfail : ∀ {n : Nat} {p : Proc} {os : List Offer}, p.offers = .fail :: os →
      loop n p = .error (.exit 1) { p with offers := os }) :
    Transmits (loop 0) p buf σ ↔ Repeats buf 0 σ := by
  have hends : ∀ (n : Nat) (p : Proc) (rest : Bytes) (σ : Stream' Offer), σ.head = .fail →
      (Transmits (loop n) p rest σ ↔ True) := by
    intro n p rest σ hhead
    have hrun (t : Nat) : loop n (p.withOffers σ (t + 1))
        = .error (.exit 1) { p with offers := σ.tail.take t } := by
      refine hfail ?_
      rw [← hhead]
      exact Stream'.take_succ t σ
    refine iff_true_intro ⟨fun t => ?_, fun hok => ?_, fun t hwait _ => ?_⟩
    · cases t with
      | zero =>
        rw [sentAfter, finalState_of_error (h.blocked rfl)]
        exact List.prefix_append p.sent rest
      | succ t =>
        rw [sentAfter, finalState_of_error (hrun t)]
        exact List.prefix_append p.sent rest
    · exact absurd hhead (hok 0 ⟨_, h.blocked rfl⟩)
    · cases t with
      | zero => exact ⟨_, hrun 0⟩
      | succ t =>
        obtain ⟨q, hq⟩ := hwait
        rw [hrun] at hq
        cases hq
  have hpos := List.length_pos_iff.mpr hbuf
  simpa using h.transmits_iff_of_fail hends buf.length 0 p σ hpos (Nat.sub_le _ _)

/-- A loop that goes on after a failed call. -/
theorem Resends.transmits_iff_unfailing (h : Resends buf loop) (hbuf : buf ≠ [])
    (hfail : ∀ {n : Nat} {p q : Proc}, p.offers = [.fail] → loop n p ≠ .error (.exit 1) q) :
    Transmits (loop 0) p buf σ ↔ Repeats buf 0 σ ∧ Unfailing buf.length 0 σ := by
  have hends : ∀ (n : Nat) (p : Proc) (rest : Bytes) (σ : Stream' Offer), σ.head = .fail →
      (Transmits (loop n) p rest σ ↔ False) := by
    intro n p rest σ hhead
    refine iff_false_intro fun htrans => ?_
    obtain ⟨q, hq⟩ := htrans.stops 0 ⟨_, h.blocked rfl⟩ hhead
    refine hfail ?_ hq
    rw [← hhead]
    rfl
  have hpos := List.length_pos_iff.mpr hbuf
  simpa using h.transmits_iff_of_fail hends buf.length 0 p σ hpos (Nat.sub_le _ _)

end Loops

end StateProtocol.Clib
