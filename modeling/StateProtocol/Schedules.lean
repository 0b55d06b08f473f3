import StateProtocol.Clib.Schedule
import StateProtocol.Data.Fields
import StateProtocol.V1.Tcp
import StateProtocol.V2.Tcp

/-!
# The TCP servers against longer schedules

The two servers are `Steady`: what a client has got so far is the beginning of what
it gets in the end, and a server that has come to its end stays there
(`V1.processQuery_steady`, `V2.processQuery_steady`).
-/

namespace StateProtocol

open StateProtocol.Clib StateProtocol.Data

namespace Data

variable {host : Host}

theorem fopen_steady (file : Option Bytes) : Steady (fopen host file) := by
  refine Steady.of_still (fun p => ?_) fun p os => Or.inl ?_
  · unfold fopen
    split
    · split <;> rfl
    · rfl
  · unfold fopen Proc.more
    dsimp only
    split
    · cases file with
      | none => exact ⟨_, _, rfl, rfl⟩
      | some data => exact ⟨_, _, rfl, rfl⟩
    · exact ⟨_, _, rfl, rfl⟩

theorem fclose_steady : Steady fclose :=
  Steady.of_still (fun _ => rfl) fun _ _ => Or.inl ⟨_, _, rfl, rfl⟩

theorem findData_steady (char1 char2 : UInt8) (index : Nat) :
    Steady (findData host char1 char2 index) := by
  refine (fopen_steady host.statedb).bind fun file => ?_
  cases file with
  | none => exact Steady.throw _
  | some db =>
    dsimp only
    cases findIn db char1 char2 index with
    | error halt => exact Steady.throw _
    | ok data => exact Steady.pure _

theorem loadGif_steady (char1 char2 : UInt8) : Steady (loadGif host char1 char2) := by
  refine (fopen_steady _).bind fun file => ?_
  cases file with
  | none => exact Steady.pure _
  | some data => exact fclose_steady.bind fun _ => Steady.pure _

theorem saveGif_steady : Steady (saveGif host) := by
  refine (fopen_steady _).bind fun file => ?_
  cases file with
  | none => exact Steady.throw _
  | some _ => exact fclose_steady

theorem cutLast_steady (opcode : UInt8) (data : CString) :
    Steady (cutLast opcode data : C Proc CString) := by
  unfold cutLast
  split
  · split
    · exact Steady.throw _
    · exact Steady.pure _
  · exact Steady.pure _

end Data

variable (host : Host)

/-! ## Version 1 -/

namespace V1

theorem writeOut_steady (res : Response maxDataLen) (message : Bytes) (len : Nat) :
    Steady (writeOut res message len) := by
  refine (Steady.copyLoop _ _ _ _).bind fun payload => ?_
  refine (Steady.writeFromStart _).bind fun done => ?_
  split
  · exact Steady.pure _
  · exact Steady.throw _

theorem checkVersion_steady (query : Request) (res : Response maxDataLen) :
    Steady (checkVersion query res) := by
  unfold checkVersion
  split
  · exact (writeOut_steady _ _ _).bind fun _ => Steady.pure _
  · exact Steady.pure _

theorem answer_steady (query : Request) (res : Response maxDataLen) :
    Steady (answer (onDisk host) query res) := by
  unfold answer
  split
  · exact writeOut_steady _ _ _
  · split
    · refine (findData_steady _ _ _).bind fun r => ?_
      cases r with
      | none => exact writeOut_steady _ _ _
      | some data => exact (cutLast_steady _ _).bind fun _ => writeOut_steady _ _ _
    · refine (loadGif_steady _ _).bind fun r => ?_
      cases r with
      | none => exact writeOut_steady _ _ _
      | some bytes => exact writeOut_steady _ _ _

theorem readLoop_steady {n : Nat} (left i : Nat) (buff : List.Vector UInt8 n) :
    Steady (readLoop left i buff) := by
  induction left generalizing i buff with
  | zero => exact Steady.pure buff
  | succ left ih =>
    refine (Steady.recvInto buff i).bind fun r => ?_
    cases r with
    | none => exact Steady.throw _
    | some buff => exact ih (i + 1) buff

theorem processQuery_steady : Steady (processQuery (onDisk host)) := by
  refine (readLoop_steady _ _ _).bind fun queryBuff => ?_
  unfold respond
  split
  · exact Steady.throw _
  · exact (checkVersion_steady _ _).bind fun res => answer_steady host _ res

end V1

/-! ## Version 2 -/

namespace V2

theorem messageResponse_steady (status : UInt8) (error : Bytes) :
    Steady (messageResponse status error) :=
  (Steady.copyLoop _ _ _ _).bind fun _ => (Steady.store _ _ _).bind fun _ => Steady.pure _

theorem handleOpp_steady (code char1 char2 : UInt8) :
    Steady (handleOpp (onDisk host) code char1 char2) := by
  refine (findData_steady _ _ _).bind fun r => ?_
  cases r with
  | none => exact Steady.pure _
  | some data => exact (Steady.copyLoop _ _ _ _).bind fun _ => Steady.pure _

theorem handleGifOpp_steady (char1 char2 : UInt8) :
    Steady (handleGifOpp (onDisk host) char1 char2) := by
  refine (loadGif_steady _ _).bind fun r => ?_
  cases r with
  | none => exact Steady.pure _
  | some data => exact (Steady.copyLoop _ _ _ _).bind fun _ => Steady.pure _

theorem printResponse_steady (res : Response) : Steady (printResponse (onDisk host) res) := by
  unfold printResponse
  split
  · exact Steady.pure ()
  · exact saveGif_steady

theorem executeLoop_steady (req : Request) (left i : Nat) (st : Progress) :
    Steady (executeLoop (onDisk host) req left i st) := by
  induction left generalizing i st with
  | zero => exact Steady.pure _
  | succ left ih =>
    refine (Steady.load _ i).bind fun opcode => ?_
    split
    · refine (handleGifOpp_steady host _ _).bind fun gif => ?_
      split
      · exact Steady.pure _
      · exact ih _ _
    · refine (handleOpp_steady host _ _ _).bind fun attempt => ?_
      split
      · exact Steady.pure _
      · exact (Steady.store _ _ _).bind fun _ => ih _ _

theorem executeQuery_steady (req : Option Request) :
    Steady (executeQuery (onDisk host) req) := by
  cases req with
  | none => exact messageResponse_steady _ _
  | some req =>
    refine (executeLoop_steady host req _ _ _).bind fun r => ?_
    cases r with
    | none => exact messageResponse_steady _ _
    | some st => exact Steady.pure _

theorem writeOut_steady (res : Response) : Steady (writeOut res) := by
  rw [writeOut_eq]
  exact Steady.sendBlocks res.blocks

theorem readLoop_steady (left i : Nat) (buff : List.Vector UInt8 queryLen) :
    Steady (readLoop left i buff) := by
  induction left generalizing i buff with
  | zero => exact Steady.pure buff
  | succ left ih =>
    refine (Steady.recvInto buff i).bind fun r => ?_
    cases r with
    | none => exact Steady.pure buff
    | some buff => exact ih (i + 1) buff

theorem processQuery_steady : Steady (processQuery (onDisk host)) := by
  refine (Steady.recvInto _ 0).bind fun first => ?_
  refine (Steady.recvInto _ 1).bind fun second => ?_
  cases second with
  | none => exact Steady.pure ()
  | some queryBuff =>
    refine (Steady.load queryBuff 1).bind fun numQueries => ?_
    split
    · exact (messageResponse_steady _ _).bind fun error => writeOut_steady error
    · refine (readLoop_steady _ 2 queryBuff).bind fun b => ?_
      refine (executeQuery_steady host _).bind fun res => ?_
      exact (printResponse_steady host res).bind fun _ => writeOut_steady res

end V2

end StateProtocol
