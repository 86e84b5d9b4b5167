import ModularNetServer.Library.BigEndian
import ModularNetServer.Http.WriteSide
import ModularNetServer.WebSocket.WebsocketConnManager

/-!
# WebSocket connections

`WebSocketConn` (`websocket_conn.cpp`). The two regular expressions are written out as the searches
that they are. `computeAcceptKey` and the handler that the router has for a path are parameters; a
handler answers with the messages that it sends on the connection. The callback set by
`setEpollWriteCallback` is called exactly when `process` returns true.
-/

namespace ModularNetServer

open Cxx

/-- `WSStatus`. -/
inductive WSStatus
  | handshake
  | connected
  deriving DecidableEq

/-- `WebSocketConn`. -/
structure WebSocketConn where
  sockfd : Int
  isClosed : Bool
  status : WSStatus
  path : Str
  readBuf : Str
  writeBuf : Str

/-- A call of a handler: the path it is registered for, the session and the message. -/
structure WsDispatch where
  path : Str
  sessionId : Str
  msg : Str
  deriving DecidableEq

/-- What the handlers of the router send back on the connection. -/
abbrev WsHandler := WsDispatch → List Str

namespace WebSocketConn

/-- A newly made object. -/
def make : WebSocketConn where
  sockfd := -1
  isClosed := false
  status := .handshake
  path := []
  readBuf := []
  writeBuf := []

/-- `init`. -/
def init (c : WebSocketConn) (sockfd : Int) : WebSocketConn :=
  if c.sockfd ≠ -1 ∧ sockfd = c.sockfd ∧ c.isClosed = false then c
  else
    { c with
      sockfd := sockfd
      isClosed := false
      status := .handshake
      readBuf := []
      writeBuf := [] }

/-- `closeConn`, with the number that is closed. -/
def closeConn (m : WebsocketConnManager) (c : WebSocketConn) :
    Option Int × WebsocketConnManager × WebSocketConn :=
  if c.isClosed then
    if c.sockfd = -1 then (none, m, c) else (some c.sockfd, m.removeFd c.sockfd, { c with sockfd := -1 })
  else (none, m, { c with isClosed := true })

/-! ## Reading and writing -/

/-- What a `recv` call comes to. -/
inductive Received
  | data (bytes : Str)
  | again
  | failed
  | ended

/-- Bytes are appended to `m_read_buf`. -/
def receive (c : WebSocketConn) (bytes : Str) : WebSocketConn := { c with readBuf := c.readBuf ++ bytes }

/-- The loop of `read` in ET mode, over what the calls of `recv` come to. -/
def readET (c : WebSocketConn) : List Received → Bool × WebSocketConn
  | .data bytes :: calls => (c.receive bytes).readET calls
  | .again :: _ => (true, c)
  | _ => (false, c)

/-- `read`, over what the calls of `recv` come to. -/
def read (edgeTriggered : Bool) (c : WebSocketConn) (calls : List Received) : Bool × WebSocketConn :=
  if c.sockfd = -1 then (false, c)
  else if edgeTriggered then c.readET calls
  else
    match calls with
    | .data bytes :: _ => (true, c.receive bytes)
    | _ => (false, c)

/-- `write`, when the socket would have it return `status`. -/
def write (c : WebSocketConn) (status : WriteStatus) : WriteStatus × WebSocketConn :=
  if c.sockfd = -1 ∨ c.isClosed = true then (.error, c)
  else
    match status with
    | .ok => (.ok, { c with writeBuf := [] })
    | .again => (.again, c)
    | .error => (.error, c)

/-- `sendTextFrame`. -/
def sendTextFrame (c : WebSocketConn) (msg : Str) : WebSocketConn :=
  let header :=
    if msg.length ≤ 125 then [UInt8.ofNat msg.length]
    else if msg.length ≤ 65535 then 126 :: BigEndian.encode 2 msg.length
    else 127 :: BigEndian.encode 8 msg.length
  { c with writeBuf := c.writeBuf ++ 0x81 :: (header ++ msg) }

/-! ## The handshake -/

/-- What follows a prefix of a text. -/
def after (pattern text : Str) : Option Str :=
  if pattern.isPrefixOf text then some (text.drop pattern.length) else none

/-- The expression `GET\s+` at the start of a text, with what follows it. -/
def afterGet (text : Str) : Option Str :=
  match after (str "GET") text with
  | none => none
  | some rest => if rest.takeWhile isSpace = [] then none else some (rest.dropWhile isSpace)

/-- The first start of a text from which a match is found. -/
def search {α : Type} (pattern : Str → Option α) : Str → Option α
  | [] => pattern []
  | b :: text =>
    match pattern (b :: text) with
    | some found => some found
    | none => search pattern text

/-- The group of `[^\s]*[?&]sessionId=([^& ]+)`: the match that starts last in the word. -/
def sessionGroup : Str → Option Str
  | [] => none
  | b :: text =>
    if isSpace b then none
    else
      match sessionGroup text with
      | some group => some group
      | none =>
        if b = 63 ∨ b = 38 then
          match after (str "sessionId=") text with
          | none => none
          | some rest =>
            let group := rest.takeWhile (fun b => b ≠ 38 && b ≠ 32)
            if group = [] then none else some group
        else none

/-- `extractSessionIdFromRequest`. -/
def extractSessionIdFromRequest (request : Str) : Str :=
  (search (fun text => (afterGet text).bind sessionGroup) request).getD []

/-- Does `\s+HTTP` match at the start of a text? -/
def spaceHttp (text : Str) : Bool :=
  text.takeWhile isSpace ≠ [] && (after (str "HTTP") (text.dropWhile isSpace)).isSome

/-- The last position that `[^ ]*\s+HTTP` can have its white space at. -/
def lastSpaceHttp : Str → Option Nat
  | [] => none
  | b :: text =>
    match if b = 32 then none else lastSpaceHttp text with
    | some pos => some (pos + 1)
    | none => if spaceHttp (b :: text) then some 0 else none

/-- The group of `(/[^ ?]*)[^ ]*\s+HTTP`, which takes as much as the rest of the match leaves it. -/
def pathGroup (text : Str) : Option Str :=
  match after (str "/") text with
  | none => none
  | some rest =>
    match lastSpaceHttp rest with
    | none => none
    | some pos => some (47 :: (rest.take pos).takeWhile (fun b => b ≠ 32 && b ≠ 63))

/-- `extractPathFromRequest`. -/
def extractPathFromRequest (request : Str) : Str :=
  (search (fun text => (afterGet text).bind pathGroup) request).getD (str "/")

/-- `computeAcceptKey`, with the functions of `CryptoUtils` that it calls. -/
def computeAcceptKey (sha1 base64Encode : Str → Str) (clientKey : Str) : Str :=
  base64Encode (sha1 (clientKey ++ str "258EAFA5-E914-47DA-95CA-C5AB0DC85B11"))

/-- `handleHandshake`. -/
def handleHandshake (computeAcceptKey : Str → Str) (c : WebSocketConn) : Bool × WebSocketConn :=
  if c.status = .connected then (false, c)
  else
    match Scan.find (str "\r\n\r\n") c.readBuf with
    | none => (false, c)
    | some _ =>
      match Scan.find (str "Sec-WebSocket-Key: ") c.readBuf with
      | none => (false, c)
      | some keyPos =>
        let keyStart := keyPos + (str "Sec-WebSocket-Key: ").length
        match Scan.find (str "\r\n") (c.readBuf.drop keyStart) with
        | none => (false, c)
        | some keyLength =>
          let clientKey := (c.readBuf.drop keyStart).take keyLength
          let response := str "HTTP/1.1 101 Switching Protocols\r\n" ++
            str "Upgrade: websocket\r\n" ++ str "Connection: Upgrade\r\n" ++
            str "Sec-WebSocket-Accept: " ++ computeAcceptKey clientKey ++ str "\r\n\r\n"
          (true, { c with writeBuf := c.writeBuf ++ response, status := .connected })

/-! ## Frames -/

/-- The length of a payload and the position after it, from the second byte of a frame. -/
def payloadLength (buf : Str) (second : UInt8) : Option (Nat × Nat) :=
  match (second &&& 0x7f).toNat with
  | 126 => if buf.length < 4 then none else some (BigEndian.decode ((buf.drop 2).take 2), 4)
  | 127 => if buf.length < 10 then none else some (BigEndian.decode ((buf.drop 2).take 8), 10)
  | len => some (len, 2)

/-- The loop that decodes a payload. -/
def unmask (key payload : Str) : Str := payload.mapIdx (fun i b => b ^^^ key.getD (i % 4) 0)

/-- `parseWebSocketFrame`, with the message and what is left of `m_read_buf`. The FIN bit and the opcode
    are read and not looked at. Lengths are 64-bit numbers, and `reserve` throws on those that no string
    can have. -/
def parseWebSocketFrame (buf : Str) : Except Exception (Option (Str × Str)) :=
  match buf with
  | _ :: second :: _ =>
    match payloadLength buf second with
    | none => .ok none
    | some (payloadLen, pos) =>
      if second &&& 0x80 = 0 then .ok none
      else if buf.length < (pos + 4 + payloadLen) % 2 ^ 64 then .ok none
      else if 2 ^ 63 ≤ payloadLen then .error .lengthError
      else
        let key := (buf.drop pos).take 4
        let message := unmask key ((buf.drop (pos + 4)).take payloadLen)
        .ok (some (message, buf.drop (pos + 4 + payloadLen)))
  | _ => .ok none

/-! ## Processing -/

/-- What a `process` call leaves behind: its result, the manager, the connection, and the handler that
    it called. -/
structure WsProcessed where
  result : Bool
  manager : WebsocketConnManager
  conn : WebSocketConn
  dispatched : Option WsDispatch

/-- `process`. -/
def process (computeAcceptKey : Str → Str) (handler : WsHandler) (m : WebsocketConnManager)
    (c : WebSocketConn) : Except Exception WsProcessed :=
  match c.status with
  | .handshake =>
    match c.handleHandshake computeAcceptKey with
    | (false, c) => .ok ⟨false, m, c, none⟩
    | (true, c) =>
      let sessionId := extractSessionIdFromRequest c.readBuf
      let path := extractPathFromRequest c.readBuf
      let m := if sessionId = [] then m else m.bindSession c.sockfd sessionId
      .ok ⟨true, m, { c with path := path, readBuf := [] }, none⟩
  | .connected =>
    match parseWebSocketFrame c.readBuf with
    | .error e => .error e
    | .ok none => .ok ⟨false, m, c, none⟩
    | .ok (some (msg, rest)) =>
      let d : WsDispatch := ⟨c.path, m.getSessionIdByFd c.sockfd, msg⟩
      .ok ⟨true, m, (handler d).foldl sendTextFrame { c with readBuf := rest }, some d⟩

end WebSocketConn

/-- A connection as chunks arrive on it, with the manager and the handlers called so far. -/
structure WsStream where
  manager : WebsocketConnManager
  conn : WebSocketConn
  dispatched : List WsDispatch

namespace WsStream

/-- A connection that has just been accepted as `fd`. -/
def accepted (m : WebsocketConnManager) (fd : Nat) : WsStream := ⟨m, WebSocketConn.make.init fd, []⟩

/-- A chunk is read and processed. After a `process` call that returns true the server writes what there
    is to write and calls `init` again, as `getKeepAlive` says yes. -/
def serve (computeAcceptKey : Str → Str) (handler : WsHandler) (s : WsStream) (chunk : Str) :
    Except Exception WsStream :=
  match (s.conn.receive chunk).process computeAcceptKey handler s.manager with
  | .error e => .error e
  | .ok r =>
    .ok {
      manager := r.manager
      conn := if r.result then (r.conn.write .ok).2.init r.conn.sockfd else r.conn
      dispatched := s.dispatched ++ r.dispatched.toList }

/-- Chunks are read one after the other. -/
def feed (computeAcceptKey : Str → Str) (handler : WsHandler) (s : WsStream) :
    List Str → Except Exception WsStream
  | [] => .ok s
  | chunk :: chunks =>
    match s.serve computeAcceptKey handler chunk with
    | .error e => .error e
    | .ok s => feed computeAcceptKey handler s chunks

/-- The messages dispatched so far. -/
def messages (s : WsStream) : List Str := s.dispatched.map WsDispatch.msg

end WsStream

/-- `sendToSession`, with the number that is selected and its connection after the call; `getConn` has
    the connections that are `WebSocketConn`s, none of which ever counts as closed. -/
def WebsocketConnManager.sendToSession (m : WebsocketConnManager)
    (getConn : Int → Option WebSocketConn) (sessionId msg : Str) : Option (Int × WebSocketConn) :=
  match m.sessionToFd sessionId with
  | none => none
  | some fd => (getConn fd).map (fun c => (fd, c.sendTextFrame msg))

end ModularNetServer
