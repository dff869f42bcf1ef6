import HybridSearch.Retry
import HybridSearch.Wire.Command

/-!
# Links

An engine behind a connection. Commands are sent and take the replies that have arrived; commands
that only read are sent again after the connection was closed, with the policy for such commands.
-/
namespace HybridSearch

inductive Incoming where
  | reply (r : Reply)
  | closed

/-- A connection: what will come back over it, and the commands that were sent, the latest
first. -/
structure Link where
  incoming : List Incoming := []
  sent : List Command := []

inductive LinkFault where
  | closed
  | refused (line : String)

def LinkFault.isTransient : LinkFault → Bool
  | closed => true
  | refused _ => false

def LinkFault.toCommandFault : LinkFault → CommandFault
  | closed => .disconnected
  | refused line => .server (ServerError.ofLine line)

namespace Link

/-- Sends a command and takes the next reply; a server that has nothing to say answers with its
status. An error inside the reply is the answer. -/
def send (command : Command) : StateM Link (Except LinkFault Reply) := fun link =>
  let rest : Link := ⟨link.incoming.tail, command :: link.sent⟩
  match link.incoming.head? with
  | none => (.ok .okay, rest)
  | some .closed => (.error .closed, rest)
  | some (.reply r) =>
    match r.failure? with
    | some line => (.error (.refused line), rest)
    | none => (.ok r, rest)

/-- Sends a command that only reads. -/
def ask (command : Command) : StateM Link (Except LinkFault Reply) :=
  RetryPolicy.query.run LinkFault.isTransient (fun _ => pure ()) (send command)

/-- Sends commands together. A closed connection ends the sending and is the fault of them all;
else the first refusal decides. -/
def sendAll : List Command → StateM Link (Except LinkFault Unit)
  | [] => return .ok ()
  | command :: rest => do
    match ← send command with
    | .error .closed => return .error .closed
    | .error (.refused line) =>
      match ← sendAll rest with
      | .error .closed => return .error .closed
      | _ => return .error (.refused line)
    | .ok _ => sendAll rest

def acknowledged (outcome : Except LinkFault α) : Except EngineError Unit :=
  match outcome with
  | .ok _ => .ok ()
  | .error fault => .error (.command fault.toCommandFault)

/-- The outcome of a command whose reply is read by `read`. -/
def answered (outcome : Except LinkFault Reply) (read : Reply → Except EngineError α) :
    Except EngineError α :=
  match outcome with
  | .ok r => read r
  | .error fault => .error (.command fault.toCommandFault)

instance : Engine (StateM Link) where
  createIndex arguments := do
    return acknowledged (← send (.create arguments))
  dropIndex name dropDocuments := do
    return acknowledged (← send (.drop name dropDocuments))
  indexExists name := do
    return answered (← ask .list) fun r =>
      (r.names.map fun names => names.contains name).mapError .command
  search index query := do
    return answered (← ask (.search index query)) fun r =>
      (SearchResults.ofReply r).mapError .reply
  load documents := do
    return acknowledged (← sendAll (documents.map Command.write))
  fetch key storage := do
    return answered (← ask (.read key storage)) fun r =>
      (Row.ofReply key storage r).mapError .reply

end Link
end HybridSearch
