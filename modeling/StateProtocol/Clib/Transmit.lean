import StateProtocol.Clib.Socket

/-!
# Sending a message block by block

A message is a list of blocks, each handed to `writeFromStart` by a `void`
function: a failed call is reported and the caller goes on with the next block.
`Delivers` is what a reliable sender owes its peer against a schedule of kernel
answers: at every moment a prefix of the message, the whole message once if no
call fails, and silence after a failed call.

`writeFromStart` sends the start of the block again after a short write, and
`sendBlocks` goes on after a failure. So delivery rests on the schedule: it is
`Clean` when, from the first call that is not whole, every further call of the
run fails. `sendBlocks_delivers` is delivery on the clean schedules; its core
is `sendBlocks_sent`, which says exactly what is on the connection after any
number of calls.
-/

namespace StateProtocol.Clib

/-- A writer without a result: the error exit of the loop is a plain return. -/
def sendBlock (buf : Bytes) : C Proc Unit := do
  let _ ← writeFromStart buf

def sendBlocks : List Bytes → C Proc Unit
  | [] => pure ()
  | b :: bs => do
    sendBlock b
    sendBlocks bs

theorem sendBlocks_append (as bs : List Bytes) :
    sendBlocks (as ++ bs) = sendBlocks as >>= fun _ => sendBlocks bs := by
  induction as with
  | nil => rfl
  | cons a as ih =>
    rw [List.cons_append, sendBlocks, sendBlocks, bind_assoc]
    exact congrArg _ (funext fun _ => ih)

/-- A kernel that takes every write whole carries every block once. -/
theorem sendBlocks_full {size : Nat} : ∀ (bs : List Bytes) {calls : Nat}
    (os : FullOffers size calls) {p : Proc}, bs.length ≤ calls → (∀ b ∈ bs, b.length ≤ size) →
    p.offers = os.offers → ∃ q, sendBlocks bs p = .ok () q ∧ q.sent = p.sent ++ bs.flatten
  | [], _, _, p, _, _, _ => ⟨p, rfl, (List.append_nil p.sent).symm⟩
  | b :: bs, 0, _, _, hcalls, _, _ => absurd hcalls (Nat.not_succ_le_zero bs.length)
  | b :: bs, calls + 1, os, p, hcalls, hsize, ho => by
    have hfirst : sendBlock b p
        = .ok () { p with sent := p.sent ++ b, offers := os.tail.offers } :=
      bind_of_ok (os.writeFromStart ho (hsize b (List.mem_cons_self ..)))
    obtain ⟨q, hq, hsent⟩ := sendBlocks_full bs os.tail
      (p := { p with sent := p.sent ++ b, offers := os.tail.offers })
      (Nat.le_of_succ_le_succ hcalls) (fun c hc => hsize c (List.mem_cons_of_mem _ hc)) rfl
    refine ⟨q, ?_, by rw [hsent, List.flatten_cons, List.append_assoc]⟩
    rw [sendBlocks, bind_of_ok hfirst]
    exact hq

/-! ## Delivery against a schedule -/

/-- The process when the kernel has answered the first `t` calls of `σ`. -/
def Proc.withOffers (p : Proc) (σ : Stream' Offer) (t : Nat) : Proc :=
  { p with offers := σ.take t }

/-- What is on the connection after `t` calls. -/
def sentAfter (x : C Proc Unit) (p : Proc) (σ : Stream' Offer) (t : Nat) : Bytes :=
  (finalState x (p.withOffers σ t)).sent

/-- After `t` calls the sender has made another one. -/
def Waiting (x : C Proc Unit) (p : Proc) (σ : Stream' Offer) (t : Nat) : Prop :=
  ∃ q, x (p.withOffers σ t) = .error .blocked q

/-- Reliable sending of `message` by `x`, started in `p`, under the kernel `σ`. -/
structure Delivers (x : C Proc Unit) (p : Proc) (message : Bytes) (σ : Stream' Offer) : Prop where
  /-- At every moment the connection carries a prefix of the message. -/
  inOrder : ∀ t, sentAfter x p σ t <+: p.sent ++ message
  /-- If no call fails, the sender returns and the whole message is out. -/
  complete : (∀ t, Waiting x p σ t → σ.get t ≠ .fail) →
    ∃ t q, x (p.withOffers σ t) = .ok () q ∧ q.sent = p.sent ++ message
  /-- After a failed call nothing more is sent. -/
  silent : ∀ t u, Waiting x p σ t → σ.get t = .fail → t ≤ u →
    sentAfter x p σ u = sentAfter x p σ t

/-- No call moves bytes after one that was short or failed. The last block's
call is the last of the run, and a failed call has no second attempt. -/
def Clean : List Bytes → Stream' Offer → Prop
  | [], _ => True
  | b :: bs, σ =>
    (σ.head.Whole b.length ∧ Clean bs σ.tail) ∨
      ∀ i < bs.length + (if σ.head = .fail then 0 else 1), σ.tail.get i = .fail

/-- A kernel that takes every block whole. -/
theorem Clean.of_whole : ∀ {bs : List Bytes} {σ : Stream' Offer},
    (∀ b ∈ bs, ∀ i, (σ.get i).Whole b.length) → Clean bs σ
  | [], _, _ => trivial
  | b :: _, _, h => Or.inl ⟨h b (List.mem_cons_self ..) 0,
      Clean.of_whole fun c hc i => h c (List.mem_cons_of_mem _ hc) (i + 1)⟩

/-! ## One block -/

variable {b : Bytes} {bs : List Bytes} {p : Proc}

theorem sendBlock_blocked (h : p.offers = []) : sendBlock b p = .error .blocked p :=
  bind_of_error (resumeAt_blocked h)

theorem sendBlock_fail {os : List Offer} (h : p.offers = .fail :: os) :
    sendBlock b p = .ok () { p with offers := os } :=
  bind_of_ok (resumeAt_fail h)

theorem sendBlock_whole {o : Offer} {os : List Offer} (h : p.offers = o :: os)
    (ho : o.Whole b.length) :
    sendBlock b p = .ok () { p with sent := p.sent ++ b, offers := os } :=
  bind_of_ok (writeFromStart_whole h ho)

/-- A short write leaves the loop waiting, or failing, on the same block. -/
theorem sendBlock_short {k : Nat} {os : List Offer} (h : p.offers = .room k :: os)
    (hk : k + 1 < b.length) :
    sendBlock b p = (resumeAt b (k + 1) >>= fun _ => pure ())
      { p with sent := p.sent ++ b.take (k + 1), offers := os } := by
  show (writeFromStart b >>= fun _ => pure ()) p = _
  rw [bind_run, writeFromStart, resumeAt_room h, Nat.zero_add, Nat.min_eq_left (by omega),
    if_neg (by omega), bind_run]

/-- What the second call of a short block puts on the connection: its start,
once more. -/
theorem sendBlock_resends {k j : Nat} (h : p.offers = [.room k, .room j])
    (hk : k + 1 < b.length) (hj : k + 1 + min (j + 1) b.length ≠ b.length) :
    sendBlock b p = .error .blocked
      { p with sent := p.sent ++ b.take (k + 1) ++ b.take (j + 1), offers := [] } := by
  rw [sendBlock_short h hk]
  refine bind_of_error ?_
  rw [resumeAt_room rfl, if_neg hj, resumeAt_blocked rfl]

/-! ## All blocks -/

/-- While every call fails, the connection stays as it is. -/
theorem sendBlocks_allFail : ∀ (bs : List Bytes) (p : Proc),
    (∀ o ∈ p.offers.take bs.length, o = .fail) →
    (finalState (sendBlocks bs) p).sent = p.sent
  | [], p, _ => rfl
  | b :: bs, p, h => by
    cases hos : p.offers with
    | nil => rw [sendBlocks, finalState, bind_of_error (sendBlock_blocked hos)]
    | cons o os =>
      rw [hos, List.length_cons, List.take_succ_cons] at h
      obtain rfl : o = .fail := h o (List.mem_cons_self ..)
      have ih := sendBlocks_allFail bs { p with offers := os }
        fun o ho => h o (List.mem_cons_of_mem _ ho)
      rw [sendBlocks, finalState, bind_of_ok (sendBlock_fail hos)]
      exact ih

/-- The bytes that the first `t` calls of a clean schedule move: whole blocks,
then what the first call that is not whole takes, then nothing. -/
def cleanSent : List Bytes → Stream' Offer → Nat → Bytes
  | [], _, _ => []
  | _ :: _, _, 0 => []
  | b :: bs, σ, t + 1 =>
    match σ.head with
    | .fail => []
    | .room k => if b.length ≤ k + 1 then b ++ cleanSent bs σ.tail t else b.take (k + 1)

theorem cleanSent_zero : ∀ (bs : List Bytes) (σ : Stream' Offer), cleanSent bs σ 0 = []
  | [], _ => rfl
  | _ :: _, _ => rfl

/-- A failing call moves nothing. -/
theorem cleanSent_of_fail (bs : List Bytes) {σ : Stream' Offer} (h : σ.head = .fail) (t : Nat) :
    cleanSent bs σ t = [] := by
  cases bs with
  | nil => rfl
  | cons b bs =>
    cases t with
    | zero => rfl
    | succ t => rw [cleanSent, h]

theorem cleanSent_initial : ∀ (bs : List Bytes) (σ : Stream' Offer) (t : Nat),
    cleanSent bs σ t <+: bs.flatten
  | [], _, _ => List.nil_prefix
  | _ :: _, _, 0 => List.nil_prefix
  | b :: bs, σ, t + 1 => by
    rw [cleanSent, List.flatten_cons]
    split
    · exact List.nil_prefix
    · split
      · exact (List.prefix_append_right_inj b).mpr (cleanSent_initial bs σ.tail t)
      · refine List.IsPrefix.trans ?_ (List.prefix_append b bs.flatten)
        exact List.take_prefix _ b

/-- Calls after a failed one add nothing. -/
theorem cleanSent_silent : ∀ (bs : List Bytes) (σ : Stream' Offer) (t u : Nat),
    σ.get t = .fail → t ≤ u → cleanSent bs σ u = cleanSent bs σ t
  | [], _, _, _, _, _ => rfl
  | b :: bs, σ, 0, u, hf, _ => by
    rw [cleanSent_of_fail (b :: bs) (show σ.head = .fail from hf), cleanSent_zero]
  | b :: bs, σ, t + 1, u + 1, hf, hu => by
    rw [cleanSent, cleanSent]
    split
    · rfl
    · rw [cleanSent_silent bs σ.tail t u hf (by omega)]

/-- What is on the connection after `t` calls of a clean schedule. -/
theorem sendBlocks_sent : ∀ (bs : List Bytes) (σ : Stream' Offer) (t : Nat) (p : Proc),
    Clean bs σ → sentAfter (sendBlocks bs) p σ t = p.sent ++ cleanSent bs σ t
  | [], _, _, p, _ => (List.append_nil p.sent).symm
  | b :: bs, σ, 0, p, _ => by
    rw [sentAfter, sendBlocks, finalState, bind_of_error (sendBlock_blocked rfl),
      cleanSent_zero, List.append_nil]
    rfl
  | b :: bs, σ, t + 1, p, hclean => by
    have hos : (p.withOffers σ (t + 1)).offers = σ.head :: σ.tail.take t := Stream'.take_succ t σ
    rw [sentAfter, sendBlocks, finalState, cleanSent]
    cases hhead : σ.head with
    | fail =>
      rw [hhead] at hos
      rw [bind_of_ok (sendBlock_fail hos), List.append_nil]
      -- no second attempt: the calls left are one for each further block
      have hfail : ∀ i < bs.length, σ.tail.get i = .fail := by
        rcases hclean with ⟨⟨k, hk, _⟩, _⟩ | h
        · rw [hhead] at hk
          cases hk
        · simpa [hhead] using h
      exact sendBlocks_allFail bs _ (allFail_of_get hfail)
    | room k =>
      rw [hhead] at hos
      dsimp only
      by_cases hk : b.length ≤ k + 1
      · rw [bind_of_ok (sendBlock_whole hos ⟨k, rfl, hk⟩), if_pos hk, ← List.append_assoc]
        rcases hclean with ⟨_, hrest⟩ | h
        · exact sendBlocks_sent bs σ.tail t { p with sent := p.sent ++ b } hrest
        · rw [hhead, if_neg (by simp)] at h
          rw [cleanSent_of_fail bs (h 0 (by omega)), List.append_nil]
          exact sendBlocks_allFail bs _ (allFail_of_get fun i hi => h i (by omega))
      · have hshort : k + 1 < b.length := by omega
        rw [bind_run, sendBlock_short hos hshort, if_neg hk]
        have h : ∀ i < bs.length + 1, σ.tail.get i = .fail := by
          rcases hclean with ⟨⟨k', hk', hle⟩, _⟩ | h
          · rw [hhead] at hk'
            cases hk'
            exact absurd hle hk
          · simpa [hhead] using h
        cases t with
        | zero =>
          rw [bind_of_error (resumeAt_blocked rfl)]
          rfl
        | succ t =>
          have hos' : σ.tail.take (t + 1) = .fail :: σ.tail.tail.take t := by
            rw [Stream'.take_succ, show σ.tail.head = .fail from h 0 (by omega)]
          rw [bind_of_ok (resumeAt_fail hos')]
          exact sendBlocks_allFail bs _ (allFail_of_get fun i hi => h (i + 1) (by omega))
where
  allFail_of_get {σ : Stream' Offer} {n t : Nat} (h : ∀ i < n, σ.get i = .fail) :
      ∀ o ∈ (σ.take t).take n, o = .fail := by
    intro o ho
    obtain ⟨i, hi, rfl⟩ := List.mem_iff_getElem.mp ho
    rw [List.length_take, Stream'.length_take] at hi
    rw [List.getElem_take]
    have := Stream'.getElem?_take (s := σ) (show i < t by omega)
    rw [List.getElem?_eq_getElem (by rw [Stream'.length_take]; omega)] at this
    rw [Option.some.inj this]
    exact h i (by omega)

/-- If no call of the run fails, a clean schedule sends every block whole. -/
theorem sendBlocks_complete : ∀ (bs : List Bytes) (σ : Stream' Offer) (p : Proc),
    Clean bs σ → (∀ t, Waiting (sendBlocks bs) p σ t → σ.get t ≠ .fail) →
    ∃ q, sendBlocks bs (p.withOffers σ bs.length) = .ok () q ∧ q.sent = p.sent ++ bs.flatten
  | [], σ, p, _, _ => ⟨p.withOffers σ 0, rfl, by simp [Proc.withOffers]⟩
  | b :: bs, σ, p, hclean, hok => by
    have hos (t : Nat) : (p.withOffers σ (t + 1)).offers = σ.head :: σ.tail.take t :=
      Stream'.take_succ t σ
    have hfirst : σ.head ≠ .fail := hok 0 ⟨_, bind_of_error (sendBlock_blocked rfl)⟩
    obtain ⟨k, hk⟩ : ∃ k, σ.head = .room k := by
      cases hh : σ.head with
      | fail => exact absurd hh hfirst
      | room k => exact ⟨k, rfl⟩
    -- a second call on this block, or a first one on the next, would have failed
    have hwhole : σ.head.Whole b.length ∧ Clean bs σ.tail := by
      rcases hclean with h | h
      · exact h
      · rw [if_neg hfirst] at h
        by_cases hle : b.length ≤ k + 1
        · refine ⟨⟨k, hk, hle⟩, ?_⟩
          cases bs with
          | nil => trivial
          | cons b' bs' =>
            refine absurd (h 0 (by simp))
              (hok 1 ⟨{ p with sent := p.sent ++ b, offers := [] }, ?_⟩)
            rw [sendBlocks, bind_of_ok (sendBlock_whole (hos 0) ⟨k, hk, hle⟩)]
            exact bind_of_error (sendBlock_blocked rfl)
        · refine absurd (h 0 (by omega))
            (hok 1 ⟨{ p with sent := p.sent ++ b.take (k + 1), offers := [] }, ?_⟩)
          have hos0 := hos 0
          rw [hk] at hos0
          rw [sendBlocks, bind_run, sendBlock_short hos0 (by omega),
            bind_of_error (resumeAt_blocked rfl)]
          rfl
    have hstep (t : Nat) : sendBlocks (b :: bs) (p.withOffers σ (t + 1))
        = sendBlocks bs ({ p with sent := p.sent ++ b }.withOffers σ.tail t) :=
      bind_of_ok (sendBlock_whole (hos t) hwhole.1)
    obtain ⟨q, hq, hsent⟩ := sendBlocks_complete bs σ.tail { p with sent := p.sent ++ b } hwhole.2
      fun t ⟨r, hr⟩ => hok (t + 1) ⟨r, (hstep t).trans hr⟩
    exact ⟨q, (hstep bs.length).trans hq, by rw [hsent, List.flatten_cons, List.append_assoc]⟩

/-- **Delivery on clean schedules.** -/
theorem sendBlocks_delivers {σ : Stream' Offer} (h : Clean bs σ) :
    Delivers (sendBlocks bs) p bs.flatten σ where
  inOrder t := by
    rw [sendBlocks_sent bs σ t p h]
    exact (List.prefix_append_right_inj _).mpr (cleanSent_initial bs σ t)
  complete hok := ⟨bs.length, sendBlocks_complete bs σ p h hok⟩
  silent t u _ hf hu := by
    rw [sendBlocks_sent bs σ u p h, sendBlocks_sent bs σ t p h, cleanSent_silent bs σ t u hf hu]

end StateProtocol.Clib
