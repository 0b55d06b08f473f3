import StateProtocol.Clib.Transmit

/-!
# Two runs of one computation

`Coupled P Q E x` says that `x` does not tell the states of `P` apart: started in
two of them it returns the same value, or stops for the same reason, and the
states it leaves are related by `Q` or `E`. The rules for `pure`, `throw` and
sequences carry that along a computation, and whatever does not look at the
state has it for every relation.

Two relations between server processes are used. `Spare limit n` relates processes
that differ in the number of open descriptors only, each with `n` below the limit;
`Apart` relates processes that differ in what their peer has still to say. The
writers see neither difference (`Unseen`), the readers do not see the first
(`Unheard`).
-/

namespace StateProtocol.Clib

variable {σ α β : Type} {P P' Q Q' R E : σ → σ → Prop}

/-- The same value in states related by `Q`, or the same end in states related by
`E`. -/
def Alike (Q E : σ → σ → Prop) (r r' : EStateM.Result Halt σ α) : Prop :=
  (∃ a s t, r = .ok a s ∧ r' = .ok a t ∧ Q s t) ∨
    ∃ e s t, r = .error e s ∧ r' = .error e t ∧ E s t

theorem Alike.ok (a : α) {s t : σ} (h : Q s t) : Alike Q E (.ok a s) (.ok a t) :=
  Or.inl ⟨a, s, t, rfl, rfl, h⟩

theorem Alike.error (e : Halt) {s t : σ} (h : E s t) :
    Alike Q E (.error e s : EStateM.Result Halt σ α) (.error e t) :=
  Or.inr ⟨e, s, t, rfl, rfl, h⟩

def Coupled (P Q E : σ → σ → Prop) (x : C σ α) : Prop :=
  ∀ ⦃s t⦄, P s t → Alike Q E (x s) (x t)

namespace Coupled

theorem mono {x : C σ α} (h : Coupled P Q E x) (hP : ∀ s t, P' s t → P s t)
    (hQ : ∀ s t, Q s t → Q' s t) : Coupled P' Q' E x := by
  intro s t hst
  rcases h (hP s t hst) with ⟨a, u, v, hs, ht, hq⟩ | ⟨e, u, v, hs, ht, he⟩
  · rw [hs, ht]
    exact Alike.ok a (hQ u v hq)
  · rw [hs, ht]
    exact Alike.error e he

protected theorem pure (a : α) : Coupled P P E (pure a : C σ α) := fun _ _ h => Alike.ok a h

protected theorem throw (e : Halt) (hE : ∀ s t, P s t → E s t) :
    Coupled P Q E (throw e : C σ α) := fun s t h => Alike.error e (hE s t h)

protected theorem bind {x : C σ α} {f : α → C σ β} (hx : Coupled P Q E x)
    (hf : ∀ a, Coupled Q R E (f a)) : Coupled P R E (x >>= f) := by
  intro s t hst
  rcases hx hst with ⟨a, u, v, hs, ht, hq⟩ | ⟨e, u, v, hs, ht, he⟩
  · rw [bind_of_ok hs, bind_of_ok ht]
    exact hf a hq
  · rw [bind_of_error hs, bind_of_error ht]
    exact Alike.error e he

/-! ## Computations that do not look at the state -/

variable {n : Nat}

theorem load (hE : ∀ s t, P s t → E s t) (v : List.Vector α n) (i : Nat) :
    Coupled P P E (Clib.load v i) := by
  unfold Clib.load
  split
  · exact Coupled.pure _
  · exact Coupled.throw _ hE

theorem store (hE : ∀ s t, P s t → E s t) (v : List.Vector α n) (i : Nat) (a : α) :
    Coupled P P E (Clib.store v i a) := by
  unfold Clib.store
  split
  · exact Coupled.pure _
  · exact Coupled.throw _ hE

theorem loadByte (hE : ∀ s t, P s t → E s t) (data : Bytes) (i : Nat) :
    Coupled P P E (Clib.loadByte data i) := by
  unfold Clib.loadByte
  split
  · exact Coupled.pure _
  · exact Coupled.throw _ hE

theorem copyLoop (hE : ∀ s t, P s t → E s t) (src : Bytes) (count i : Nat)
    (dst : List.Vector UInt8 n) : Coupled P P E (Clib.copyLoop src count i dst) := by
  induction count generalizing i dst with
  | zero => exact Coupled.pure dst
  | succ count ih =>
    unfold Clib.copyLoop
    exact (loadByte hE src i).bind fun b => (store hE dst i b).bind fun dst => ih (i + 1) dst

theorem sendto (hE : ∀ s t, P s t → E s t) (image : Bytes) (size : Nat) :
    Coupled P P E (Clib.sendto image size) := by
  unfold Clib.sendto
  split
  · exact Coupled.pure _
  · exact Coupled.throw _ hE

end Coupled

/-! ## Writing -/

/-- The writers do not see the difference, and do not change it. -/
structure Unseen (R : Proc → Proc → Prop) : Prop where
  offers : ∀ {p q}, R p q → p.offers = q.offers
  answered : ∀ {p q} (os : List Offer), R p q → R { p with offers := os } { q with offers := os }
  moved : ∀ {p q} (bs : Bytes), R p q →
    R { p with sent := p.sent ++ bs } { q with sent := q.sent ++ bs }

section Writing

variable {R E : Proc → Proc → Prop}

theorem write_coupled (hR : Unseen R) (hE : ∀ p q, R p q → E p q) (buf : Bytes) :
    Coupled R R E (write buf) := by
  intro p q h
  have hos := hR.offers h
  unfold write
  rw [← hos]
  cases p.offers with
  | nil => exact Alike.error _ (hE p q h)
  | cons o os =>
    cases o with
    | fail => exact Alike.ok _ (hR.answered os h)
    | room k => exact Alike.ok _ (hR.answered os (hR.moved (buf.take (k + 1)) h))

theorem restartLoop_coupled (hR : Unseen R) (hE : ∀ p q, R p q → E p q) (buf : Bytes)
    (calls n : Nat) : Coupled R R E (restartLoop buf calls n) := by
  induction calls generalizing n with
  | zero => exact Coupled.throw _ hE
  | succ calls ih =>
    refine (write_coupled hR hE buf).bind fun k => ?_
    cases k with
    | none => exact Coupled.pure _
    | some k =>
      dsimp only
      split
      · exact Coupled.pure _
      · exact ih (n + k)

theorem writeFromStart_coupled (hR : Unseen R) (hE : ∀ p q, R p q → E p q) (buf : Bytes) :
    Coupled R R E (writeFromStart buf) := by
  intro p q h
  unfold writeFromStart resumeAt
  -- the two loops have the same number of calls
  rw [← hR.offers h]
  exact restartLoop_coupled hR hE buf _ 0 h

theorem sendBlock_coupled (hR : Unseen R) (hE : ∀ p q, R p q → E p q) (buf : Bytes) :
    Coupled R R E (sendBlock buf) :=
  (writeFromStart_coupled hR hE buf).bind fun _ => Coupled.pure ()

theorem sendBlocks_coupled (hR : Unseen R) (hE : ∀ p q, R p q → E p q) (bs : List Bytes) :
    Coupled R R E (sendBlocks bs) := by
  induction bs with
  | nil => exact Coupled.pure ()
  | cons b bs ih => exact (sendBlock_coupled hR hE b).bind fun _ => ih

end Writing

/-! ## Reading -/

/-- The readers do not see the difference either. -/
structure Unheard (R : Proc → Proc → Prop) : Prop where
  input : ∀ {p q}, R p q → p.input = q.input
  broken : ∀ {p q}, R p q → p.broken = q.broken
  read : ∀ {p q} (bs : Bytes), R p q → R { p with input := bs } { q with input := bs }

section Reading

variable {R E : Proc → Proc → Prop} {n : Nat}

theorem recvByte_coupled (hR : Unheard R) : Coupled R R E recvByte := by
  intro p q h
  unfold recvByte
  rw [← hR.input h]
  cases p.input with
  | nil =>
    dsimp only
    rw [← hR.broken h]
    exact Alike.ok _ h
  | cons b bs => exact Alike.ok _ (hR.read bs h)

theorem recvInto_coupled (hR : Unheard R) (hE : ∀ p q, R p q → E p q)
    (buff : List.Vector UInt8 n) (i : Nat) : Coupled R R E (recvInto buff i) := by
  refine (recvByte_coupled hR).bind fun r => ?_
  cases r with
  | error => exact Coupled.throw _ hE
  | closed => exact Coupled.pure _
  | byte b => exact (Coupled.store hE buff i b).bind fun _ => Coupled.pure _

end Reading

/-! ## Processes that differ in their descriptors -/

/-- The processes differ in the number of open descriptors, and both can open `n`
more. -/
structure Spare (limit n : Nat) (p q : Proc) : Prop where
  same : q = { p with fds := q.fds }
  left : p.fds + n ≤ limit
  right : q.fds + n ≤ limit

namespace Spare

variable {limit n m : Nat} {p q : Proc}

theorem mono (h : Spare limit n p q) (hle : m ≤ n) : Spare limit m p q :=
  ⟨h.same, (Nat.add_le_add_left hle _).trans h.left, (Nat.add_le_add_left hle _).trans h.right⟩

theorem unseen (limit n : Nat) : Unseen (Spare limit n) where
  offers h := by rw [h.same]
  answered os h := ⟨by rw [h.same], h.left, h.right⟩
  moved bs h := ⟨by rw [h.same], h.left, h.right⟩

theorem unheard (limit n : Nat) : Unheard (Spare limit n) where
  input h := by rw [h.same]
  broken h := by rw [h.same]
  read bs h := ⟨by rw [h.same], h.left, h.right⟩

end Spare

/-! ## Processes that differ in their input -/

/-- The processes differ in what their peer has still to say. -/
def Apart (p q : Proc) : Prop := q = { p with input := q.input, broken := q.broken }

theorem Apart.unseen : Unseen Apart where
  offers h := by rw [show _ = _ from h]
  answered os h := by rw [Apart, show _ = _ from h]
  moved bs h := by rw [Apart, show _ = _ from h]

/-! ## What the peers see -/

/-- At every moment of a schedule the two runs have sent the same, if the relations
that they end in say so. -/
theorem Coupled.sentAfter_eq {P Q E : Proc → Proc → Prop} {x : C Proc Unit}
    (hx : Coupled P Q E x) (hQ : ∀ p q, Q p q → p.sent = q.sent)
    (hE : ∀ p q, E p q → p.sent = q.sent) {p q : Proc} {σ : Stream' Offer} {t : Nat}
    (h : P (p.withOffers σ t) (q.withOffers σ t)) :
    sentAfter x p σ t = sentAfter x q σ t ∧ (Waiting x p σ t ↔ Waiting x q σ t) := by
  unfold sentAfter Waiting finalState
  rcases hx h with ⟨a, u, v, hp, hq, huv⟩ | ⟨e, u, v, hp, hq, huv⟩
  · rw [hp, hq]
    exact ⟨hQ u v huv, iff_of_false (fun ⟨_, h⟩ => by cases h) fun ⟨_, h⟩ => by cases h⟩
  · rw [hp, hq]
    refine ⟨hE u v huv, ?_⟩
    constructor
    · rintro ⟨_, h⟩
      cases h
      exact ⟨v, rfl⟩
    · rintro ⟨_, h⟩
      cases h
      exact ⟨u, rfl⟩

theorem Spare.sent {limit n : Nat} {p q : Proc} (h : Spare limit n p q) : p.sent = q.sent := by
  rw [h.same]

theorem Apart.withOffers {p q : Proc} (h : Apart p q) (σ : Stream' Offer) (t : Nat) :
    Apart (p.withOffers σ t) (q.withOffers σ t) := Apart.unseen.answered _ h

theorem Apart.sent {p q : Proc} (h : Apart p q) : p.sent = q.sent := by rw [show q = _ from h]

end StateProtocol.Clib
