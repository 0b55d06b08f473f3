import StateProtocol.Clib.Transmit

/-!
# Longer schedules

A run against more answers of the kernel goes on where the shorter one was: it ends
in the same way if that had ended, and otherwise it adds to what is on the
connection. `Steady x` says so of a computation; the rules for `pure`, `throw`
and sequences carry it from the socket calls to a server.

So the moments of a run against a schedule form a history: `sentAfter` only grows
(`sentAfter_mono`), and once the run has ended it stays as it is
(`sentAfter_of_ended`).
-/

namespace StateProtocol.Clib

variable {α β : Type}

/-- The process with more answers of the kernel to come. -/
def Proc.more (p : Proc) (os : List Offer) : Proc := { p with offers := p.offers ++ os }

/-- The state that a run ended in. -/
def endState : EStateM.Result Halt Proc α → Proc
  | .ok _ q => q
  | .error _ q => q

theorem endState_eq (x : C Proc α) (p : Proc) : endState (x p) = finalState x p := by
  unfold finalState
  cases x p <;> rfl

/-- How the run `r'`, which had `os` to come besides, goes on from `r`. -/
def Extends (os : List Offer) (r r' : EStateM.Result Halt Proc α) : Prop :=
  match r with
  | .ok a q => r' = .ok a (q.more os)
  | .error .blocked q => q.sent <+: (endState r').sent
  | .error e q => r' = .error e (q.more os)

structure Steady (x : C Proc α) : Prop where
  grows : ∀ p, p.sent <+: (endState (x p)).sent
  further : ∀ p os, Extends os (x p) (x (p.more os))

/-- Another end than waiting is the end with a longer schedule too. -/
theorem Extends.halt {os : List Offer} {e : Halt} {q : Proc}
    {r' : EStateM.Result Halt Proc α} (h : Extends os (.error e q) r') (he : e ≠ .blocked) :
    r' = .error e (q.more os) := by
  cases e with
  | exit code => exact h
  | fault => exact h
  | blocked => exact absurd rfl he

theorem extends_error (os : List Offer) (e : Halt) (q : Proc) :
    Extends os (.error e q : EStateM.Result Halt Proc α) (.error e (q.more os)) := by
  cases e with
  | exit code => rfl
  | fault => rfl
  | blocked => exact List.prefix_rfl

namespace Steady

protected theorem pure (a : α) : Steady (pure a : C Proc α) :=
  ⟨fun _ => List.prefix_rfl, fun _ _ => rfl⟩

protected theorem throw (e : Halt) : Steady (throw e : C Proc α) :=
  ⟨fun _ => List.prefix_rfl, fun p os => extends_error os e p⟩

protected theorem bind {x : C Proc α} {f : α → C Proc β} (hx : Steady x)
    (hf : ∀ a, Steady (f a)) : Steady (x >>= f) where
  grows p := by
    have hgrows := hx.grows p
    rw [bind_run]
    cases hxp : x p with
    | error e q =>
      rw [hxp] at hgrows
      exact hgrows
    | ok a q =>
      rw [hxp] at hgrows
      exact hgrows.trans ((hf a).grows q)
  further p os := by
    have hmore := hx.further p os
    cases hxp : x p with
    | ok a q =>
      rw [hxp] at hmore
      rw [bind_of_ok hxp, bind_of_ok (show x (p.more os) = _ from hmore)]
      exact (hf a).further q os
    | error e q =>
      rw [hxp] at hmore
      rw [bind_of_error hxp]
      by_cases he : e = .blocked
      · subst he
        -- the longer run has gone on, in `x` or behind it
        refine (show q.sent <+: (endState (x (p.more os))).sent from hmore).trans ?_
        rw [bind_run]
        cases x (p.more os) with
        | error e u => exact List.prefix_rfl
        | ok a u => exact (hf a).grows u
      · rw [bind_of_error (hmore.halt he)]
        exact extends_error os e q

/-- A computation that leaves the schedule alone and sends nothing. -/
theorem of_still {x : C Proc α} (hsent : ∀ p, (endState (x p)).sent = p.sent)
    (hmore : ∀ p os, (∃ a q, x p = .ok a q ∧ x (p.more os) = .ok a (q.more os)) ∨
      ∃ e q, x p = .error e q ∧ x (p.more os) = .error e (q.more os)) : Steady x where
  grows p := ⟨[], (List.append_nil p.sent).trans (hsent p).symm⟩
  further p os := by
    rcases hmore p os with ⟨a, q, hp, ho⟩ | ⟨e, q, hp, ho⟩
    · rw [hp, ho]
      rfl
    · rw [hp, ho]
      exact extends_error os e q

/-! ## Arrays -/

variable {n : Nat}

theorem load (v : List.Vector α n) (i : Nat) : Steady (Clib.load v i) := by
  unfold Clib.load
  split
  · exact Steady.pure _
  · exact Steady.throw _

theorem store (v : List.Vector α n) (i : Nat) (a : α) : Steady (Clib.store v i a) := by
  unfold Clib.store
  split
  · exact Steady.pure _
  · exact Steady.throw _

theorem loadByte (data : Bytes) (i : Nat) : Steady (Clib.loadByte data i) := by
  unfold Clib.loadByte
  split
  · exact Steady.pure _
  · exact Steady.throw _

theorem copyLoop (src : Bytes) (count i : Nat) (dst : List.Vector UInt8 n) :
    Steady (Clib.copyLoop src count i dst) := by
  induction count generalizing i dst with
  | zero => exact Steady.pure dst
  | succ count ih =>
    unfold Clib.copyLoop
    exact (loadByte src i).bind fun b => (store dst i b).bind fun dst => ih (i + 1) dst

/-! ## The connection -/

theorem recvByte : Steady Clib.recvByte := by
  refine of_still (fun p => ?_) fun p os => Or.inl ?_
  · unfold Clib.recvByte
    cases p.input <;> rfl
  · unfold Clib.recvByte Proc.more
    dsimp only
    cases hin : p.input with
    | nil => exact ⟨_, _, rfl, by rw [hin]⟩
    | cons b bs => exact ⟨_, _, rfl, rfl⟩

theorem recvInto (buff : List.Vector UInt8 n) (i : Nat) : Steady (Clib.recvInto buff i) := by
  refine recvByte.bind fun r => ?_
  cases r with
  | error => exact Steady.throw _
  | closed => exact Steady.pure _
  | byte b => exact (store buff i b).bind fun _ => Steady.pure _

theorem write (buf : Bytes) : Steady (Clib.write buf) where
  grows p := by
    unfold Clib.write
    cases p.offers with
    | nil => exact List.prefix_rfl
    | cons o os =>
      cases o with
      | fail => exact List.prefix_rfl
      | room k => exact List.prefix_append _ _
  further p os := by
    unfold Clib.write Proc.more
    cases hos : p.offers with
    | nil =>
      show p.sent <+: _
      cases os with
      | nil => exact List.prefix_rfl
      | cons o os =>
        cases o with
        | fail => exact List.prefix_rfl
        | room k => exact List.prefix_append _ _
    | cons o rest => cases o <;> rfl

theorem restartLoop (buf : Bytes) (calls n : Nat) : Steady (Clib.restartLoop buf calls n) := by
  induction calls generalizing n with
  | zero => exact Steady.throw _
  | succ calls ih =>
    refine (write buf).bind fun k => ?_
    cases k with
    | none => exact Steady.pure _
    | some k =>
      dsimp only
      split
      · exact Steady.pure _
      · exact ih (n + k)

/-- More calls than there are answers make no difference. -/
theorem restartLoop_calls (buf : Bytes) (extra : Nat) : ∀ (calls n : Nat) (p : Proc),
    p.offers.length < calls →
    Clib.restartLoop buf (calls + extra) n p = Clib.restartLoop buf calls n p := by
  intro calls
  induction calls with
  | zero => exact fun _ _ h => absurd h (Nat.not_lt_zero _)
  | succ calls ih =>
    intro n p h
    rw [Nat.add_right_comm, Clib.restartLoop, Clib.restartLoop, bind_run, bind_run, Clib.write]
    cases hos : p.offers with
    | nil => rfl
    | cons o os =>
      rw [hos, List.length_cons] at h
      cases o with
      | fail => rfl
      | room k =>
        dsimp only
        split
        · rfl
        · exact ih _ _ (Nat.lt_of_succ_lt_succ h)

theorem writeFromStart (buf : Bytes) : Steady (Clib.writeFromStart buf) where
  grows p := (restartLoop buf (p.offers.length + 1) 0).grows p
  further p os := by
    have hcalls : (p.more os).offers.length + 1 = p.offers.length + 1 + os.length := by
      rw [Proc.more, List.length_append]
      omega
    have hsame := restartLoop_calls buf os.length (p.offers.length + 1) 0 p (Nat.lt_succ_self _)
    unfold Clib.writeFromStart resumeAt
    rw [← hsame, hcalls]
    exact (restartLoop buf _ 0).further p os

theorem sendBlock (buf : Bytes) : Steady (Clib.sendBlock buf) :=
  (writeFromStart buf).bind fun _ => Steady.pure ()

theorem sendBlocks (bs : List Bytes) : Steady (Clib.sendBlocks bs) := by
  induction bs with
  | nil => exact Steady.pure ()
  | cons b bs ih => exact (sendBlock b).bind fun _ => ih

end Steady

/-! ## The moments of a run -/

section Moments

variable {x : C Proc Unit} {p : Proc} {σ : Stream' Offer} {t u : Nat}

/-- Later, the kernel has given more answers. -/
theorem withOffers_add (p : Proc) (σ : Stream' Offer) (t d : Nat) :
    p.withOffers σ (t + d) = (p.withOffers σ t).more ((σ.drop t).take d) := by
  have htake : σ.take (t + d) = σ.take t ++ (σ.drop t).take d := by
    induction d with
    | zero => exact (List.append_nil _).symm
    | succ d ih =>
      rw [← Nat.add_assoc, Stream'.take_succ', Stream'.take_succ', ih, List.append_assoc,
        Stream'.get_drop]
  rw [Proc.withOffers, htake]
  rfl

/-- **What is on a connection stays there.** -/
theorem sentAfter_mono (hx : Steady x) (htu : t ≤ u) :
    sentAfter x p σ t <+: sentAfter x p σ u := by
  obtain ⟨d, rfl⟩ := Nat.exists_eq_add_of_le htu
  have hfurther := hx.further (p.withOffers σ t) ((σ.drop t).take d)
  rw [← withOffers_add] at hfurther
  rw [sentAfter, sentAfter, ← endState_eq, ← endState_eq]
  cases hrun : x (p.withOffers σ t) with
  | ok a q =>
    rw [hrun] at hfurther
    rw [show x (p.withOffers σ (t + d)) = _ from hfurther]
    exact List.prefix_rfl
  | error e q =>
    rw [hrun] at hfurther
    by_cases he : e = .blocked
    · subst he
      exact hfurther
    · rw [hfurther.halt he]
      exact List.prefix_rfl

/-- A run that does not wait any more has come to its end. -/
theorem sentAfter_of_ended (hx : Steady x) (hend : ¬Waiting x p σ t) (htu : t ≤ u) :
    sentAfter x p σ u = sentAfter x p σ t ∧ ¬Waiting x p σ u := by
  obtain ⟨d, rfl⟩ := Nat.exists_eq_add_of_le htu
  have hfurther := hx.further (p.withOffers σ t) ((σ.drop t).take d)
  rw [← withOffers_add] at hfurther
  rw [sentAfter, sentAfter, ← endState_eq, ← endState_eq]
  cases hrun : x (p.withOffers σ t) with
  | ok a q =>
    rw [hrun] at hfurther
    have hlater : x (p.withOffers σ (t + d)) = _ := hfurther
    refine ⟨by rw [hlater]; rfl, ?_⟩
    rintro ⟨r, hr⟩
    rw [hlater] at hr
    cases hr
  | error e q =>
    rw [hrun] at hfurther
    have he : e ≠ .blocked := fun he => hend ⟨q, by rw [hrun, he]⟩
    have hlater := hfurther.halt he
    refine ⟨by rw [hlater]; rfl, ?_⟩
    rintro ⟨r, hr⟩
    rw [hlater] at hr
    cases hr
    exact he rfl

/-- If the run has come to its end at `t`, then what is on the connection at any moment
is the beginning of what is there at `t`, and all of it if the run has come to its
end by then. -/
theorem sentAfter_settled (hx : Steady x) (hend : ¬Waiting x p σ t) (u : Nat) :
    sentAfter x p σ u <+: sentAfter x p σ t ∧
      (¬Waiting x p σ u → sentAfter x p σ u = sentAfter x p σ t) := by
  rcases Nat.le_total t u with htu | hut
  · obtain ⟨hsame, -⟩ := sentAfter_of_ended hx hend htu
    rw [hsame]
    exact ⟨List.prefix_rfl, fun _ => rfl⟩
  · exact ⟨sentAfter_mono hx hut, fun hu => (sentAfter_of_ended hx hu hut).1.symm⟩

/-- A kernel that takes every write whole, as far as it is asked. -/
def FullOffers.ofKernel {size : Nat} (σ : Stream' Offer) (h : ∀ i, (σ.get i).Whole size)
    (calls : Nat) : FullOffers size calls where
  offers := σ.take calls
  enough := (Stream'.length_take calls σ).ge
  whole o ho := by
    obtain ⟨i, hi, rfl⟩ := List.mem_iff_getElem.mp ho
    rw [Stream'.length_take] at hi
    have hget := Stream'.getElem?_take (s := σ) hi
    rw [List.getElem?_eq_getElem (by rwa [Stream'.length_take])] at hget
    rw [Option.some.inj hget]
    exact h i

/-- A run that returns has come to its end. -/
theorem not_waiting_of_ok {q : Proc} (h : x (p.withOffers σ t) = .ok () q) :
    ¬Waiting x p σ t ∧ sentAfter x p σ t = q.sent := by
  refine ⟨?_, by rw [sentAfter, finalState, h]⟩
  rintro ⟨r, hr⟩
  rw [h] at hr
  cases hr

/-- So has one that exits. -/
theorem not_waiting_of_exit {q : Proc} {code : Nat}
    (h : x (p.withOffers σ t) = .error (.exit code) q) :
    ¬Waiting x p σ t ∧ sentAfter x p σ t = q.sent := by
  refine ⟨?_, by rw [sentAfter, finalState_of_error h]⟩
  rintro ⟨r, hr⟩
  rw [h] at hr
  cases hr

end Moments

end StateProtocol.Clib
