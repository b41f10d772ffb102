import Hostlink.Reply
import Hostlink.RouteTable

/-!
# Hosts

The host that a page talks to: it reads requests, answers them by its routes, and keeps a list of
what it has read. A fetch may also be answered by hand, or always in the same way.

* `Host.answer` — reads a request and answers it;
* `Host.fetch` — the reply to a fetch, as far as it is known at once.
-/

namespace Hostlink

/-- The body of a reply to a fetch, or why there is none. -/
abbrev FetchReply := Except Rejection (List UInt8)

/-- How a host deals with requests that reach it by themselves. -/
inductive Conduct where
  /-- By its routes. -/
  | routed
  /-- It waits until it is told to answer. -/
  | manual
  /-- Every fetch gets the same reply. -/
  | fixed (reply : FetchReply)

/-- Does it answer by its routes? -/
def Conduct.isRouted : Conduct → Bool
  | .routed => true
  | _ => false

/-- What a host has to say to a request. -/
inductive HostAnswer where
  | routed (answer : Except HostError Json)
  /-- There is no route. -/
  | unknownResource (path : String)

/-- A host with a state of type `σ`. -/
structure Host (σ : Type) where
  conduct : Conduct
  table : RouteTable σ
  state : σ
  codec : Codec
  /-- Does it know the page? -/
  connected : Bool
  /-- The requests it has read, in order. -/
  seen : List Request

namespace Host

variable {σ : Type}

/-- Reads a request and answers it. -/
def answer (h : Host σ) (url : String) : Except Rejection (Request × HostAnswer) × Host σ :=
  match h.codec.decode url with
  | .error e => (.error (.transport s!"host could not decode {url}: {e.message}"), h)
  | .ok r =>
    let h := { h with seen := h.seen ++ [r] }
    if h.table.contains r.path then
      let (answer, state) := h.table.dispatch r.path r.args h.state
      (.ok (r, .routed answer), { h with state := state })
    else (.ok (r, .unknownResource r.path), h)

/-- The reply to a request that has been read. -/
def replyOf : HostAnswer → FetchReply
  | .routed answer => .ok (Reply.encode answer)
  | .unknownResource path => .error (.unknownResource path)

/-- The reply to a fetch; none if it is answered by hand. -/
def fetch (h : Host σ) (url : String) : Option FetchReply × Host σ :=
  match h.conduct with
  | .manual => (none, h)
  | .fixed reply => (some reply, h)
  | .routed =>
    match h.answer url with
    | (.ok (_, answer), h) => (some (replyOf answer), h)
    | (.error e, h) => (some (.error e), h)

/-- What an answer settles a request over script tags with. -/
def settlementOf : HostAnswer → Settlement
  | .routed (.ok data) => Reply.settle data none
  | .routed (.error e) => Reply.settle .null (some e.toJson)
  | .unknownResource path => .error (.unknownResource path)

end Host

end Hostlink
