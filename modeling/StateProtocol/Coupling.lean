import StateProtocol.Data.Coupling
import StateProtocol.V1.Tcp
import StateProtocol.V1.Udp
import StateProtocol.V2.Tcp
import StateProtocol.V2.Udp

/-!
# What the servers do not see of their process

A server that uses the library of a `Couples` does not tell related processes
apart either, if the budget covers the lookups that it makes: one for a query of
version 1, five for one of version 2, of which the last is for a flag.
-/

namespace StateProtocol

open StateProtocol.Clib StateProtocol.Data

variable {lib : DataUtils Proc} {R : Nat → Proc → Proc → Prop}

/-! ## Version 1 -/

namespace V1

theorem writeOut_coupled {R E : Proc → Proc → Prop} (hR : Unseen R) (hE : ∀ p q, R p q → E p q)
    (res : Response maxDataLen) (message : Bytes) (len : Nat) :
    Coupled R R E (writeOut res message len) := by
  refine (Coupled.copyLoop hE message (intCount len) 0 res.payload).bind fun payload => ?_
  refine (writeFromStart_coupled hR hE _).bind fun done => ?_
  split
  · exact Coupled.pure _
  · exact Coupled.throw _ hE

theorem checkVersion_coupled {R E : Proc → Proc → Prop} (hR : Unseen R)
    (hE : ∀ p q, R p q → E p q) (query : Request) (res : Response maxDataLen) :
    Coupled R R E (checkVersion query res) := by
  unfold checkVersion
  split
  · exact (writeOut_coupled hR hE _ _ _).bind fun _ => Coupled.pure _
  · exact Coupled.pure _

theorem answer_coupled (hlib : Couples lib R) (query : Request) (res : Response maxDataLen) :
    Coupled (R 1) (R 0) (R 0) (answer lib query res) := by
  have hzero : ∀ p q, R 0 p q → R 0 p q := fun _ _ h => h
  have hone : ∀ p q, R 1 p q → R 0 p q := hlib.mono (Nat.zero_le 1)
  have hwrite := writeOut_coupled (hlib.unseen 0) hzero
  unfold answer
  split
  · exact (hwrite _ _ _).mono hone hzero
  · split
    · refine (hlib.findData 0 _ _ _).bind fun r => ?_
      cases r with
      | none => exact hwrite _ _ _
      | some data => exact (cutLast_coupled hzero _ _).bind fun _ => hwrite _ _ _
    · refine ((hlib.loadGif 0 _ _).mono (fun _ _ h => h) hone).bind fun r => ?_
      cases r with
      | none => exact hwrite _ _ _
      | some bytes => exact hwrite _ _ _

theorem respond_coupled (hlib : Couples lib R) (query : Request) :
    Coupled (R 1) (R 0) (R 0) (respond lib query) := by
  have hone : ∀ p q, R 1 p q → R 0 p q := hlib.mono (Nat.zero_le 1)
  unfold respond
  split
  · exact Coupled.throw _ hone
  · exact (checkVersion_coupled (hlib.unseen 1) hone query _).bind fun res =>
      answer_coupled hlib query res

theorem readLoop_coupled {R E : Proc → Proc → Prop} {n : Nat} (hR : Unheard R)
    (hE : ∀ p q, R p q → E p q) (left i : Nat) (buff : List.Vector UInt8 n) :
    Coupled R R E (readLoop left i buff) := by
  induction left generalizing i buff with
  | zero => exact Coupled.pure buff
  | succ left ih =>
    refine (recvInto_coupled hR hE buff i).bind fun r => ?_
    cases r with
    | none => exact Coupled.throw _ hE
    | some buff => exact ih (i + 1) buff

theorem processQuery_coupled (hlib : Couples lib R) (hheard : Unheard (R 1)) :
    Coupled (R 1) (R 0) (R 0) (processQuery lib) :=
  (readLoop_coupled hheard (hlib.mono (Nat.zero_le 1)) _ _ _).bind fun queryBuff =>
    respond_coupled hlib (castRequest queryBuff)

end V1

/-! ## Version 2 -/

namespace V2

theorem messageResponse_coupled {R E : Proc → Proc → Prop} (hE : ∀ p q, R p q → E p q)
    (status : UInt8) (error : Bytes) : Coupled R R E (messageResponse status error) :=
  (Coupled.copyLoop hE _ _ _ _).bind fun _ => (Coupled.store hE _ _ _).bind fun _ =>
    Coupled.pure _

theorem handleOpp_coupled (hlib : Couples lib R) (n : Nat) (code char1 char2 : UInt8) :
    Coupled (R (n + 1)) (R n) (R 0) (handleOpp lib code char1 char2) := by
  refine (hlib.findData n _ _ _).bind fun r => ?_
  cases r with
  | none => exact Coupled.pure _
  | some data =>
    exact (Coupled.copyLoop (hlib.mono (Nat.zero_le n)) _ _ _ _).bind fun _ => Coupled.pure _

theorem handleGifOpp_coupled (hlib : Couples lib R) (n : Nat) (char1 char2 : UInt8) :
    Coupled (R (n + 1)) (R (n + 1)) (R 0) (handleGifOpp lib char1 char2) := by
  refine (hlib.loadGif n _ _).bind fun r => ?_
  cases r with
  | none => exact Coupled.pure _
  | some data =>
    exact (Coupled.copyLoop (hlib.mono (Nat.zero_le _)) _ _ _ _).bind fun _ => Coupled.pure _

theorem printResponse_coupled (hlib : Couples lib R) (n : Nat) (res : Response) :
    Coupled (R (n + 1)) (R (n + 1)) (R 0) (printResponse lib res) := by
  unfold printResponse
  split
  · exact Coupled.pure ()
  · exact hlib.saveGif n _ _ _

/-- The loop, with a budget for the texts that are left and a flag. -/
theorem executeLoop_coupled (hlib : Couples lib R) (req : Request) :
    ∀ (left i : Nat) (st : Progress) (n : Nat), i + left ≤ 5 →
      (textOps ((req.opcodes.toList.drop i).take left)).length ≤ n →
      Coupled (R (n + 1)) (R 1) (R 0) (executeLoop lib req left i st) := by
  intro left
  induction left with
  | zero =>
    intro i st n _ _
    exact (Coupled.pure _).mono (hlib.mono (by omega)) fun _ _ h => h
  | succ left ih =>
    intro i st n hi htexts
    have hlen : i < req.opcodes.toList.length := by
      rw [List.Vector.toList_length]
      exact show i < 5 by omega
    have hload : ∀ s : Proc, (load req.opcodes i : C Proc UInt8) s = _ := load_of_lt _ hlen
    rw [List.drop_eq_getElem_cons hlen, List.take_succ_cons] at htexts
    intro p q hpq
    rw [executeLoop, bind_of_ok (hload p), bind_of_ok (hload q)]
    by_cases h5 : req.opcodes.toList[i] = 5
    · rw [textOps, List.filter_cons_of_neg (by simpa using h5)] at htexts
      rw [if_pos h5]
      refine (handleGifOpp_coupled hlib n _ _).bind (fun gif => ?_) hpq
      split
      · exact (Coupled.pure _).mono (hlib.mono (by omega)) fun _ _ h => h
      · exact ih (i + 1) _ n (by omega) htexts
    · rw [textOps, List.filter_cons_of_pos (by simpa using h5), List.length_cons] at htexts
      obtain ⟨m, rfl⟩ : ∃ m, n = m + 1 := ⟨n - 1, by omega⟩
      rw [if_neg h5]
      refine (handleOpp_coupled hlib (m + 1) _ _ _).bind (fun attempt => ?_) hpq
      split
      · exact (Coupled.pure _).mono (hlib.mono (by omega)) fun _ _ h => h
      · refine (Coupled.store (hlib.mono (Nat.zero_le _)) _ _ _).bind fun _ => ?_
        exact ih (i + 1) _ m (by omega) (by rw [textOps]; omega)

/-- A parsed query has four texts at the most. -/
theorem executeQuery_coupled (hlib : Couples lib R) (b : List.Vector UInt8 queryLen) :
    Coupled (R 5) (R 1) (R 0) (executeQuery lib (parseQuery b)) := by
  have hless : ∀ p q, R 5 p q → R 1 p q := hlib.mono (by omega)
  have hone : ∀ p q, R 1 p q → R 0 p q := hlib.mono (Nat.zero_le 1)
  cases hparse : parseQuery b with
  | none => exact (messageResponse_coupled hone _ _).mono hless fun _ _ h => h
  | some req =>
    obtain ⟨-, hacc⟩ := parseQuery_eq_some.mp hparse
    have hcount := hacc.count_le
    have htexts := hacc.executed_texts
    refine (executeLoop_coupled hlib req _ 0 _ 4 (by omega) htexts).bind fun r => ?_
    cases r with
    | none => exact messageResponse_coupled hone _ _
    | some st => exact Coupled.pure _

theorem writeOut_coupled {R E : Proc → Proc → Prop} (hR : Unseen R) (hE : ∀ p q, R p q → E p q)
    (res : Response) : Coupled R R E (writeOut res) := by
  rw [writeOut_eq]
  exact sendBlocks_coupled hR hE res.blocks

theorem readLoop_coupled {R E : Proc → Proc → Prop} (hR : Unheard R) (hE : ∀ p q, R p q → E p q)
    (left i : Nat) (buff : List.Vector UInt8 queryLen) :
    Coupled R R E (readLoop left i buff) := by
  induction left generalizing i buff with
  | zero => exact Coupled.pure buff
  | succ left ih =>
    refine (recvInto_coupled hR hE buff i).bind fun r => ?_
    cases r with
    | none => exact Coupled.pure buff
    | some buff => exact ih (i + 1) buff

/-- What is left to do with a query in the buffer. -/
theorem execute_coupled (hlib : Couples lib R) (b : List.Vector UInt8 queryLen) :
    Coupled (R 5) (R 0) (R 0) (do
      let res ← executeQuery lib (parseQuery b)
      printResponse lib res
      writeOut res) :=
  (executeQuery_coupled hlib b).bind fun res =>
    ((printResponse_coupled hlib 0 res).mono (fun _ _ h => h)
      (hlib.mono (Nat.zero_le 1))).bind fun _ =>
        writeOut_coupled (hlib.unseen 0) (fun _ _ h => h) res

theorem processQuery_coupled (hlib : Couples lib R) (hheard : Unheard (R 5)) :
    Coupled (R 5) (R 0) (R 0) (processQuery lib) := by
  have hzero : ∀ p q, R 5 p q → R 0 p q := hlib.mono (by omega)
  refine (recvInto_coupled hheard hzero _ 0).bind fun first => ?_
  refine (recvInto_coupled hheard hzero _ 1).bind fun second => ?_
  cases second with
  | none => exact (Coupled.pure ()).mono hzero fun _ _ h => h
  | some queryBuff =>
    refine (Coupled.load hzero queryBuff 1).bind fun numQueries => ?_
    split
    · refine ((messageResponse_coupled hzero _ _).bind fun error => ?_)
      exact (writeOut_coupled (hlib.unseen 5) hzero error).mono (fun _ _ h => h) hzero
    · refine (readLoop_coupled hheard hzero _ 2 queryBuff).bind fun b => ?_
      exact execute_coupled hlib b

end V2

end StateProtocol
