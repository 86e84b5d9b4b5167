import ModularNetServer.WebSocket.Proofs.StreamProofs

/-!
# The handshake in chunks

The buffer is searched anew after every chunk. Before the last chunk of a head there is no empty line in
it, and after the last one the first occurrences that `handleHandshake` finds are those in the head.
-/

namespace ModularNetServer

open Cxx

namespace WebSocketConn

variable {c : WebSocketConn}

variable {acc : Str → Str} {handler : WsHandler} {m : WebsocketConnManager}

end WebSocketConn

end ModularNetServer
