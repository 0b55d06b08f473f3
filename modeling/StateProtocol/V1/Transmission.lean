import StateProtocol.Clib.Resend
import StateProtocol.V1.Client

/-!
# Transmission of a version 1 frame and of a request

The loops of `write_out` and of `send_and_recieve` are to write an entire
structure, however the kernel splits it. Both pass the start of the structure to
every call, so a call after a short one is right only where the structure
repeats itself; and the client's loop counts a failed call as -1 and goes on.

A frame has its version at the start, and one that reports an error has that byte
nowhere else. So all frames at once get through exactly when only the first call
moves anything, and all requests when it moves all of them.
-/

namespace StateProtocol.V1

open StateProtocol.Clib StateProtocol.Data

/-- What `process_query` hands to `write_out`. -/
structure Frame where
  status : UInt8
  message : Bytes
  fits : message.length ≤ maxDataLen

namespace Frame

/-- The call of `write_out`. -/
def send (frame : Frame) : C Proc Unit :=
  writeOut { Response.init maxDataLen with status := frame.status } frame.message
    frame.message.length

/-- The structure it is to write. -/
def bytes (frame : Frame) : Bytes := (reply maxDataLen frame.status frame.message).encode

theorem bytes_length (frame : Frame) : frame.bytes.length = 19006 := Response.encode_length _

/-- The loop of `write_out` with `n` bytes counted. -/
def loop (frame : Frame) (n : Nat) : C Proc Unit := do
  if ← resumeAt frame.bytes n then return ()
  else throw (.exit 1)

theorem send_eq (frame : Frame) : frame.send = frame.loop 0 := by
  funext p
  have hint : intCount frame.message.length = frame.message.length :=
    intCount_of_lt (frame.fits.trans_lt (show 19000 < 2 ^ 31 by omega))
  have hcopy : copyLoop frame.message frame.message.length 0 (zeroPad maxDataLen []) p = _ :=
    copyLoop_zeroPad (Nat.le_refl _) frame.fits p
  rw [List.take_length] at hcopy
  rw [send, writeOut, hint]
  exact bind_of_ok hcopy

theorem resends (frame : Frame) : Resends frame.bytes frame.loop where
  blocked h := bind_of_error (resumeAt_blocked h)
  room {n k p os} h := by
    have hrun : resumeAt frame.bytes n p = _ := resumeAt_room h
    by_cases hfull : n + min (k + 1) frame.bytes.length = frame.bytes.length
    · rw [if_pos hfull] at hrun ⊢
      rw [loop, bind_of_ok hrun]
      rfl
    · rw [if_neg hfull] at hrun ⊢
      rw [loop, loop, bind_run, bind_run, hrun]

theorem loop_fail (frame : Frame) {n : Nat} {p : Proc} {os : List Offer}
    (h : p.offers = .fail :: os) :
    frame.loop n p = .error (.exit 1) { p with offers := os } := by
  rw [loop, bind_of_ok (resumeAt_fail h)]
  rfl

theorem transmits_iff_repeats (frame : Frame) (p : Proc) (σ : Stream' Offer) :
    Transmits frame.send p frame.bytes σ ↔ Repeats frame.bytes 0 σ := by
  have hne : frame.bytes ≠ [] := by
    rw [← List.length_pos_iff, bytes_length]
    omega
  rw [send_eq]
  exact frame.resends.transmits_iff hne frame.loop_fail

/-- The version of a frame is a byte that need not come again. -/
theorem single_of_repeats {frame : Frame} {σ : Stream' Offer} (hstatus : frame.status ≠ 1)
    (hmessage : 1 ∉ frame.message) (h : Repeats frame.bytes 0 σ) : Single 19006 σ := by
  have hcons : frame.bytes = 1 :: frame.status ::
      (wordBytes (htonl 19000) ++ (zeroPad maxDataLen frame.message).toList) := by
    rw [bytes, reply, Response.init, Response.encode, List.append_assoc, List.cons_append,
      List.cons_append, List.nil_append]
    rfl
  have hlen : (1 : UInt8) ∉ wordBytes (htonl 19000) := by decide
  have hpay : (1 : UInt8) ∉ (zeroPad maxDataLen frame.message).toList := by
    rw [zeroPad_toList, List.mem_append]
    refine not_or.mpr ⟨fun h1 => hmessage (List.mem_of_mem_take h1), fun h1 => ?_⟩
    exact absurd (List.eq_of_mem_replicate h1) (by decide)
  rw [← frame.bytes_length]
  rw [hcons] at h ⊢
  refine h.single ?_
  rw [List.mem_cons, List.mem_append]
  exact not_or.mpr ⟨hstatus.symm, not_or.mpr ⟨hlen, hpay⟩⟩

/-- The answer to a query of another version. -/
def wrongVersion : Frame := ⟨255, versionMsg, versionMsg_length.trans_le (by decide)⟩

theorem wrongVersion_single {σ : Stream' Offer} (h : Repeats wrongVersion.bytes 0 σ) :
    Single 19006 σ :=
  single_of_repeats (by decide) (by decide) h

/-- The schedules that carry every frame are those where only the first call moves
anything. -/
theorem all_transmit_iff (σ : Stream' Offer) :
    (∀ (frame : Frame) (p : Proc), Transmits frame.send p frame.bytes σ) ↔ Single 19006 σ := by
  constructor
  · intro hall
    exact wrongVersion_single
      ((wrongVersion.transmits_iff_repeats Proc.fresh σ).mp (hall wrongVersion Proc.fresh))
  · intro hsingle frame p
    refine (frame.transmits_iff_repeats p σ).mpr (Single.repeats ?_)
    rw [frame.bytes_length]
    exact hsingle

end Frame

/-! ## Requests -/

section Requests

variable (req : Request)

/-- The loop of `send_and_recieve` with `n` bytes counted. -/
def requestLoop (n : Nat) : C Proc Unit := fun p =>
  writeLoop req.encode (p.offers.length + 1) n p

theorem requestLoop_resends : Resends req.encode (requestLoop req) where
  blocked {n p} h := by
    rw [requestLoop, writeLoop, bind_run, write, h]
  room {n k p os} h := by
    rw [requestLoop, writeLoop, bind_run, write, h]
    by_cases hfull : n + min (k + 1) req.encode.length = req.encode.length
    · rw [if_pos hfull]
      exact congrFun (if_pos (congrArg Nat.cast hfull)) _
    · rw [if_neg hfull]
      exact congrFun (if_neg (mt Int.ofNat.inj hfull)) _

/-- After a failed call the loop goes on, or has counted its way back to the
length. -/
theorem requestLoop_fail {n : Nat} {p q : Proc} (h : p.offers = [.fail]) :
    requestLoop req n p ≠ .error (.exit 1) q := by
  have hagain (m : Int) : writeLoop req.encode 1 m { p with offers := [] }
      = .error .blocked { p with offers := [] } := rfl
  have hrun : requestLoop req n p
      = (if (n : Int) + -1 = req.encode.length then return () else writeLoop req.encode 1 (n + -1))
        { p with offers := [] } := by
    rw [requestLoop, writeLoop, bind_run, write, h]
    rfl
  rw [hrun]
  split
  · exact fun hexit => by cases hexit
  · rw [hagain]
    exact fun hexit => by cases hexit

theorem sendRequest_transmits_iff (p : Proc) (σ : Stream' Offer) :
    Transmits (sendRequest req) p req.encode σ ↔
      Repeats req.encode 0 σ ∧ Unfailing 4 0 σ :=
  (requestLoop_resends req).transmits_iff_unfailing (List.cons_ne_nil _ _) (requestLoop_fail req)

end Requests

/-- The schedules that carry every request are those that take it whole at once. -/
theorem requests_transmit_iff (σ : Stream' Offer) :
    (∀ req p, Transmits (sendRequest req) p req.encode σ) ↔ σ.head.Whole 4 := by
  constructor
  · intro hall
    obtain ⟨hrepeats, hok⟩ := (sendRequest_transmits_iff ⟨1, 2, 110, 104⟩ Proc.fresh σ).mp
      (hall _ _)
    have hfirst : σ.head ≠ .fail := hok 0 (due_zero.mpr (by decide))
    rcases hrepeats.single (by decide) with hfail | hwhole | hfail
    · exact absurd hfail hfirst
    · exact hwhole
    · -- the second call would be due after a short first one
      cases hhead : σ.head with
      | fail => exact absurd hhead hfirst
      | room k =>
        refine ⟨k, rfl, Nat.not_lt.mp fun hshort => hok 1 ?_ hfail⟩
        refine due_succ.mpr ⟨hfirst, due_zero.mpr ?_⟩
        rw [hhead, Offer.count]
        omega
  · intro hwhole req p
    refine (sendRequest_transmits_iff req p σ).mpr ⟨Single.repeats (Or.inr (Or.inl hwhole)), ?_⟩
    obtain ⟨k, hk, hle⟩ := hwhole
    rw [unfailing_room hk]
    exact unfailing_full (by omega)

/-- **Which schedules of short and failed writes are borne**, by a single frame or
request and by all of them. -/
theorem short_writes_borne_iff (σ : Stream' Offer) :
    (∀ (frame : Frame) (p : Proc),
      Transmits frame.send p frame.bytes σ ↔ Repeats frame.bytes 0 σ) ∧
    ((∀ (frame : Frame) (p : Proc), Transmits frame.send p frame.bytes σ) ↔ Single 19006 σ) ∧
    (∀ (req : Request) (p : Proc), Transmits (sendRequest req) p req.encode σ ↔
      Repeats req.encode 0 σ ∧ Unfailing 4 0 σ) ∧
    ((∀ (req : Request) (p : Proc), Transmits (sendRequest req) p req.encode σ) ↔
      σ.head.Whole 4) := by
  refine ⟨fun frame p => frame.transmits_iff_repeats p σ, Frame.all_transmit_iff σ,
    fun req p => sendRequest_transmits_iff req p σ, requests_transmit_iff σ⟩

/-- A kernel that takes one byte at a time. -/
theorem byte_by_byte_not_borne :
    ¬Transmits Frame.wrongVersion.send Proc.fresh Frame.wrongVersion.bytes
        (Stream'.const (.room 0)) ∧
      ¬Transmits (sendRequest ⟨1, 2, 110, 104⟩) Proc.fresh [1, 2, 110, 104]
        (Stream'.const (.room 0)) := by
  have hno (size : Nat) (hsize : 1 < size) : ¬Single size (Stream'.const (.room 0)) := by
    rintro (hfail | ⟨k, hk, hle⟩ | hfail)
    · cases hfail
    · cases hk
      omega
    · cases hfail
  constructor
  · intro htrans
    have hrepeats := (Frame.wrongVersion.transmits_iff_repeats _ _).mp htrans
    exact hno 19006 (by omega) (Frame.wrongVersion_single hrepeats)
  · intro htrans
    have hrepeats := ((sendRequest_transmits_iff ⟨1, 2, 110, 104⟩ _ _).mp htrans).1
    exact hno 4 (by omega) (hrepeats.single (by decide))

end StateProtocol.V1
