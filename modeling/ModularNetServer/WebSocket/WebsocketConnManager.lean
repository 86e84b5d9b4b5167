import ModularNetServer.Library.CxxText
import ModularNetServer.Library.Table

/-!
# Sessions and descriptors

`WebsocketConnManager` (`websocket_conn_manager.cpp`): the two maps between sessions and the numbers
of the connections bound to them.
-/

namespace ModularNetServer

open Cxx

/-- `m_session_to_fd` and `m_fd_to_session`. -/
structure WebsocketConnManager where
  sessionToFd : Table Str Int
  fdToSession : Table Int Str

namespace WebsocketConnManager

/-- The manager at the start of the program. -/
def empty : WebsocketConnManager := ⟨Table.empty, Table.empty⟩

/-- `bindSession`. -/
def bindSession (m : WebsocketConnManager) (fd : Int) (sessionId : Str) : WebsocketConnManager where
  sessionToFd := m.sessionToFd.insert sessionId fd
  fdToSession := m.fdToSession.insert fd sessionId

/-- `removeFd`. -/
def removeFd (m : WebsocketConnManager) (fd : Int) : WebsocketConnManager :=
  match m.fdToSession fd with
  | none => m
  | some sessionId => ⟨m.sessionToFd.erase sessionId, m.fdToSession.erase fd⟩

/-- The calls that change the maps. -/
inductive Op
  | bindSession (fd : Int) (sessionId : Str)
  | removeFd (fd : Int)
  deriving DecidableEq

/-- A call. -/
def apply (m : WebsocketConnManager) : Op → WebsocketConnManager
  | .bindSession fd sessionId => m.bindSession fd sessionId
  | .removeFd fd => m.removeFd fd

/-- The manager after a sequence of calls. -/
def run (ops : List Op) : WebsocketConnManager := ops.foldl apply empty

/-- `getSessionIdByFd`: the empty string for a number that is not bound. -/
def getSessionIdByFd (m : WebsocketConnManager) (fd : Int) : Str := (m.fdToSession fd).getD []

end WebsocketConnManager

end ModularNetServer
