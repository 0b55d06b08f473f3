import StateProtocol.Coupling
import StateProtocol.Clib.Schedule
import StateProtocol.V2.Grammar
import StateProtocol.V2.Served

/-!
# One query for a connection

A TCP server does not look behind the first query on a connection. What a client
sends after it, a second query for example, and how the stream ends then change
nothing of what is sent back, at no moment of no schedule of the kernel
(`V1.v1_delimited`, `V2.v2_delimited`). This is so on any files, and with however
few descriptors: the servers that read the query in the same way are coupled from
there on.
-/

namespace StateProtocol

open StateProtocol.Clib StateProtocol.Data

/-- The streams of the processes begin with the same `k` bytes, and that is all they
need have in common. -/
structure SameStart (k : Nat) (p q : Proc) : Prop where
  apart : Apart p q
  long : k ≤ p.input.length
  start : p.input.take k <+: q.input

namespace SameStart

variable {k : Nat} {p q : Proc}

theorem take_eq (h : SameStart k p q) : q.input.take k = p.input.take k := by
  have hlen : (p.input.take k).length = k := by
    rw [List.length_take]
    exact Nat.min_eq_left h.long
  have htake := List.prefix_iff_eq_take.mp h.start
  rw [hlen] at htake
  exact htake.symm

theorem long_right (h : SameStart k p q) : k ≤ q.input.length := by
  have hlen := h.start.length_le
  rwa [List.length_take, Nat.min_eq_left h.long] at hlen

/-- Behind two bytes of the common start. -/
theorem cons {m : Nat} {a b : UInt8} {s : Bytes} (h : SameStart (m + 2) p q)
    (hp : p.input = a :: b :: s) :
    ∃ s', q.input = a :: b :: s' ∧ m ≤ s'.length ∧ s'.take m = s.take m := by
  have htake := h.take_eq
  have hlong := h.long_right
  rw [hp, List.take_succ_cons, List.take_succ_cons] at htake
  have hq := List.take_append_drop (m + 2) q.input
  rw [htake] at hq
  refine ⟨s.take m ++ q.input.drop (m + 2), hq.symm, ?_, ?_⟩
  · rw [← hq] at hlong
    exact Nat.le_of_add_le_add_right (show m + 2 ≤ _ + 2 from hlong)
  · have hm : (s.take m).length = m := by
      have hp' := h.long
      rw [hp] at hp'
      rw [List.length_take]
      exact Nat.min_eq_left (Nat.le_of_add_le_add_right hp')
    exact List.take_left' hm

/-- After reading, the processes differ as before. -/
theorem read (h : SameStart k p q) (bs cs : Bytes) :
    Apart { p with input := bs } { q with input := cs } := by
  rw [Apart, show q = _ from h.apart]

end SameStart

variable {host : Host} {p q : Proc}

/-! ## Version 1 -/

namespace V1

theorem processQuery_sameStart (host : Host) :
    Coupled (SameStart 4) Apart Apart (processQuery (onDisk host)) := by
  intro p q h
  rw [processQuery_reads rfl h.long, processQuery_reads rfl h.long_right]
  have hget : ∀ i < 4, q.input.getD i 0 = p.input.getD i 0 := by
    intro i hi
    rw [← getD_take hi, h.take_eq, getD_take hi]
  have hquery : queryOf q.input = queryOf p.input := by
    unfold queryOf
    rw [hget 0 (by omega), hget 1 (by omega), hget 2 (by omega), hget 3 (by omega)]
  rw [hquery]
  exact respond_coupled (onDisk_apart host) _ (h.read _ _)

/-- **What follows a query does not matter.** -/
theorem v1_delimited (host : Host) {p q : Proc} (hpq : Apart p q) (hlong : 4 ≤ p.input.length)
    (hstart : p.input.take 4 <+: q.input) (σ : Stream' Offer) (t : Nat) :
    sentAfter (processQuery (onDisk host)) p σ t = sentAfter (processQuery (onDisk host)) q σ t ∧
    (Waiting (processQuery (onDisk host)) p σ t ↔
      Waiting (processQuery (onDisk host)) q σ t) :=
  (processQuery_sameStart host).sentAfter_eq (fun _ _ h => h.sent) (fun _ _ h => h.sent)
    ⟨hpq.withOffers σ t, hlong, hstart⟩

/-- Two queries at once, and one on a connection that breaks behind it. -/
theorem v1_delimited_two :
    sentAfter (processQuery (onDisk Host.small))
        { Proc.fresh with input := [1, 1, 110, 104, 1, 2, 110, 104] } (Stream'.const (.room 19006)) 1
      = sentAfter (processQuery (onDisk Host.small))
        { Proc.fresh with input := [1, 1, 110, 104], broken := true }
        (Stream'.const (.room 19006)) 1 ∧
    (Waiting (processQuery (onDisk Host.small))
        { Proc.fresh with input := [1, 1, 110, 104, 1, 2, 110, 104] } (Stream'.const (.room 19006)) 1
      ↔ Waiting (processQuery (onDisk Host.small))
        { Proc.fresh with input := [1, 1, 110, 104], broken := true }
        (Stream'.const (.room 19006)) 1) := by
  have hpq : Apart { Proc.fresh with input := [1, 1, 110, 104, 1, 2, 110, 104] }
    { Proc.fresh with input := [1, 1, 110, 104], broken := true } := rfl
  exact v1_delimited Host.small hpq (by decide) ⟨[], rfl⟩ _ 1

end V1

/-! ## Version 2 -/

namespace V2

/-- How much of a stream the server reads. -/
def queryLength (s : Bytes) : Nat :=
  if announced s > 5 then 2 else 4 + (announced s).toNat

/-- The streams begin with the same query, and it is there. -/
def SameQuery (p q : Proc) : Prop :=
  2 ≤ p.input.length ∧ SameStart (queryLength p.input) p q

theorem processQuery_sameQuery (host : Host) :
    Coupled SameQuery Apart Apart (processQuery (onDisk host)) := by
  rintro p q ⟨htwo, h⟩
  obtain ⟨version, numQueries, s, hp⟩ : ∃ version numQueries s,
      p.input = version :: numQueries :: s := by
    match hin : p.input, htwo with
    | version :: numQueries :: s, _ => exact ⟨version, numQueries, s, rfl⟩
  have hannounced : announced (version :: numQueries :: s) = numQueries := rfl
  rw [hp, queryLength, hannounced] at h
  by_cases hbig : numQueries > 5
  · rw [if_pos hbig] at h
    obtain ⟨s', hq, -, -⟩ := h.cons (m := 0) hp
    rw [processQuery_counted _ hp, processQuery_counted _ hq, if_pos hbig]
    refine Coupled.bind (messageResponse_coupled (fun _ _ h => h) _ _) (fun error => ?_)
      (h.read s s')
    exact writeOut_coupled Apart.unseen (fun _ _ h => h) error
  · rw [if_neg hbig, show 4 + numQueries.toNat = 2 + numQueries.toNat + 2 by omega] at h
    obtain ⟨s', hq, hlong, htake⟩ := h.cons hp
    have hlongp := h.long
    rw [hp] at hlongp
    have hle : numQueries.toNat ≤ 5 := UInt8.le_iff_toNat_le.mp (UInt8.not_lt.mp hbig)
    have hloop : ∀ (r : Proc) (bs : Bytes), r.input = bs → 2 + numQueries.toNat ≤ bs.length →
        readLoop (2 + numQueries.toNat) 2 (zeroPad queryLen [version, numQueries]) r
          = .ok (zeroPad queryLen ([version, numQueries] ++ bs.take (2 + numQueries.toNat)))
            { r with input := bs.drop (2 + numQueries.toNat) } :=
      fun r bs hin hbs => readLoop_run _ [version, numQueries] bs hin (fun _ => hbs)
        (show 2 + (2 + numQueries.toNat) ≤ 9 by omega)
    rw [processQuery_counted _ hp, processQuery_counted _ hq, if_neg hbig,
      bind_of_ok (hloop _ s rfl (Nat.le_of_add_le_add_right hlongp)),
      bind_of_ok (hloop _ s' rfl hlong), htake]
    exact execute_coupled (onDisk_apart host) _ (h.read _ _)

/-- **What follows a query does not matter** here either. -/
theorem v2_delimited (host : Host) {p q : Proc} (hpq : Apart p q) (htwo : 2 ≤ p.input.length)
    (hlong : queryLength p.input ≤ p.input.length)
    (hstart : p.input.take (queryLength p.input) <+: q.input) (σ : Stream' Offer) (t : Nat) :
    sentAfter (processQuery (onDisk host)) p σ t = sentAfter (processQuery (onDisk host)) q σ t ∧
    (Waiting (processQuery (onDisk host)) p σ t ↔
      Waiting (processQuery (onDisk host)) q σ t) :=
  (processQuery_sameQuery host).sentAfter_eq (fun _ _ h => h.sent) (fun _ _ h => h.sent)
    ⟨htwo, hpq.withOffers σ t, hlong, hstart⟩

/-- Two queries at once, and one on a connection that breaks behind it. -/
theorem v2_delimited_two :
    sentAfter (processQuery (onDisk Host.small))
        { Proc.fresh with input := [2, 1, 110, 104, 1, 2, 1, 110, 104, 2] }
        (Stream'.const (.room 19004)) 1
      = sentAfter (processQuery (onDisk Host.small))
        { Proc.fresh with input := [2, 1, 110, 104, 1], broken := true }
        (Stream'.const (.room 19004)) 1 ∧
    (Waiting (processQuery (onDisk Host.small))
        { Proc.fresh with input := [2, 1, 110, 104, 1, 2, 1, 110, 104, 2] }
        (Stream'.const (.room 19004)) 1
      ↔ Waiting (processQuery (onDisk Host.small))
        { Proc.fresh with input := [2, 1, 110, 104, 1], broken := true }
        (Stream'.const (.room 19004)) 1) := by
  have hpq : Apart { Proc.fresh with input := [2, 1, 110, 104, 1, 2, 1, 110, 104, 2] }
    { Proc.fresh with input := [2, 1, 110, 104, 1], broken := true } := rfl
  exact v2_delimited Host.small hpq (by decide) (by decide) ⟨[], rfl⟩ _ 1

end V2

end StateProtocol
