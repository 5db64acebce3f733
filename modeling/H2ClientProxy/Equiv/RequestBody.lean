import H2ClientProxy.Equiv.Relay
import H2ClientProxy.HttpParser.Requests

/-!
# Which requests have a body

Two modules decide whether a request has a body: the parser from the framing fields and the method
(`headersDone`), and `relay_send_request` from the method and from whether there is an `Upgrade` field
(`requestHasProvider`).

* `submitsOpen_iff`: a request is submitted with the data provider, and without `END_STREAM`, iff its
  method is `POST` or `CONNECT` or it has an `Upgrade` field.
* `bodyCanBeSent_iff`: so the body that the parser delivers can be sent for these requests alone.
* `not_bodyCanBeSent`: a `PUT`.
-/

namespace H2ClientProxy

variable {header : Header}

/-- When `relay_send_request` submits a request for a relay of a live session, the stream is opened with
the relay as data provider, and our side of it is not ended. -/
def SubmitsOpen (header : Header) : Prop :=
  ∀ (w : World) (r : RelayId) (rel : Relay), w.relays r = some rel → w.sSession = true →
    ∃ st, (submitted w r rel header).streams w.nextStreamId = some st ∧ st.provider = some r ∧
      st.shutWr = false

/-- The method is `POST` or `CONNECT`, or there is an `Upgrade` field, in any letter case. -/
def takesBody (header : Header) : Bool :=
  strcasecmp header.method (bytes "post") || strcasecmp header.method (bytes "connect")
    || header.listHeaders.any fun f => strcasecmp f.field (bytes "upgrade")

theorem requestHasProvider_eq (header : Header) : requestHasProvider header = takesBody header := by
  have hfind : (headerValue header (bytes "upgrade")).isSome =
      header.listHeaders.any fun f => strcasecmp f.field (bytes "upgrade") := by
    rw [headerValue, Option.isSome_map, List.isSome_find?]
  unfold requestHasProvider takesBody
  rw [hfind, Bool.or_assoc, Bool.or_comm]

/-- A world with one relay, whose session is up. -/
def oneRelay : World :=
  World.addRelay { tunnel := .connected, sSession := true } { session := true, args := 0 }

theorem submitsOpen_iff (header : Header) : SubmitsOpen header ↔ takesBody header = true := by
  rw [← requestHasProvider_eq]
  constructor
  · intro h
    obtain ⟨st, hst, hprovider, -⟩ := h oneRelay 0 { session := true, args := 0 } rfl rfl
    rw [submitted_streams, Function.update_self, Option.some.injEq] at hst
    by_contra hno
    rw [← hst, requestStream, if_neg hno] at hprovider
    exact Option.some_ne_none _ hprovider.symm
  · intro hhas w r rel _ _
    refine ⟨requestStream (requestHasProvider header) r w.refusesRequests, ?_, ?_, ?_⟩
    · rw [submitted_streams, Function.update_self]
    · rw [requestStream, if_pos hhas]
    · rw [requestStream, hhas]
      rfl

/-- What is claimed of a connection on which the pieces `early` are received before the `n`-th request is
submitted, and the pieces `later` after: if the parser delivers a byte of its body, the stream is open
for it. -/
def BodyCanBeSent (early later : List Bytes) (n : ℕ) : Prop :=
  ∀ k k' req req', Connection.feed {} early = some k → k.feed later = some k' →
    k.requests[n]? = some req → req.complete = true → k'.requests[n]? = some req' → req'.body ≠ [] →
    SubmitsOpen req.header

/-- The bodies that can be sent are those of the requests with `POST`, `CONNECT` or an `Upgrade`
field. -/
theorem bodyCanBeSent_iff (early later : List Bytes) (n : ℕ) :
    BodyCanBeSent early later n ↔
      ∀ k k' req req', Connection.feed {} early = some k → k.feed later = some k' →
        k.requests[n]? = some req → req.complete = true → k'.requests[n]? = some req' →
        req'.body ≠ [] → takesBody req.header = true := by
  unfold BodyCanBeSent
  simp only [submitsOpen_iff]

/-- A `PUT` whose head and body come in two pieces. -/
def putHead : Bytes := bytes "PUT / HTTP/1.1\r\nContent-Length: 1\r\n\r\n"

/-- The body of a `PUT` is delivered, and cannot be sent. -/
theorem not_bodyCanBeSent : ¬ ∀ early later n, BodyCanBeSent early later n := by
  intro h
  have hput := h [putHead] [bytes "x"] 0
  unfold BodyCanBeSent at hput
  simp only [submitsOpen_iff] at hput
  have hdelivered : ∃ k k' req req', Connection.feed {} [putHead] = some k ∧
      k.feed [bytes "x"] = some k' ∧ k.requests[0]? = some req ∧ req.complete = true ∧
      k'.requests[0]? = some req' ∧ req'.body ≠ [] ∧ takesBody req.header = false := by
    refine ⟨_, _, _, _, rfl, rfl, rfl, ?_, rfl, ?_, ?_⟩ <;> decide +kernel
  obtain ⟨k, k', req, req', hk, hk', hreq, hcomplete, hreq', hbody, hnot⟩ := hdelivered
  rw [hput k k' req req' hk hk' hreq hcomplete hreq' hbody] at hnot
  exact Bool.noConfusion hnot

end H2ClientProxy
