import H2ClientProxy.Client

/-!
# The socket of the tunnel: `tcp_conn_write` and `relay_session_send_callback`

nghttp2 offers the bytes of its frames to `relay_session_send_callback`, which hands them to the
non-blocking socket and answers how many of them nghttp2 may forget.
-/

namespace H2ClientProxy

/-- What has gone over the socket of the tunnel, and what nghttp2 takes for sent. -/
structure TunnelConn where
  accepted : Bytes := []
  reported : Bytes := []
  deriving DecidableEq

/-- `tcp_conn_write`: one `send()`, which answers `res`. -/
def tcpConnWrite (t : TunnelConn) (buf : Bytes) (res : SendResult) : TunnelConn × ℤ :=
  match (send [res] buf.length).1 with
  | .ok lenWrite => ({ t with accepted := t.accepted ++ buf.take lenWrite }, lenWrite)
  | .error _ => (t, -1)

/-- `relay_session_send_callback`: the result of `conn_write` is not looked at. -/
def relaySessionSendCallback (t : TunnelConn) (data : Bytes) (res : SendResult) :
    TunnelConn × ℤ :=
  ((tcpConnWrite t data res).1, data.length)

/-- One round of the loop of `nghttp2_session_send`: as many bytes as the callback answers are taken
for sent, none after a negative answer. -/
def offer (t : TunnelConn) (call : Bytes × SendResult) : TunnelConn :=
  let (t, sentlen) := relaySessionSendCallback t call.1 call.2
  { t with reported := t.reported ++ call.1.take sentlen.toNat }

/-- The rounds of the loop, over all calls of `nghttp2_session_send`. -/
def offers (calls : List (Bytes × SendResult)) : TunnelConn := calls.foldl offer {}

end H2ClientProxy
