import Smsc.Session.State

/-!
# Smsc.Session.Output — frames that leave, replies, and the end of a session

* `Session.transmit`: every frame goes out through it;
* `Session.disconnect`: from any state to `closed`;
* `Session.openReply`: the first reply of a responder decides what is written, the rest is refused;
* `Session.markBound`: the step from `opened` to `bound`.
-/

namespace Smsc.Session

/-- Encodes a frame and writes it. -/
def transmit (s : Session) (f : Frame) : Session × Except ChannelError Unit :=
  match f.encode with
  | .error e => (s.measure (.pduError "encode"), .error (.encode e))
  | .ok octets =>
    if s.channel.refuses then
      ((s.note (.writeFailed f)).measure (.pduError "write"), .error .closed)
    else ((s.note (.wrote f octets)).measure (.pduSent f.command.name), .ok ())

/-- Closes the session, whatever it was: pending requests are released, waiting offers refused, the
reader told to stop, and the channel told to disconnect. -/
def disconnect (s : Session) : Session × Except ChannelError Unit :=
  let window := if s.status = .closed then s.window else s.window.close.1
  let channel := { s.channel with isConnected := false, disconnects := s.channel.disconnects + 1 }
  ({ s with status := .closed, window, isShutDown := true, channel },
    if s.channel.failsDisconnects then .error .closed else .ok ())

/-- Binds an open session. In another state it reports that state. -/
def markBound (s : Session) (b : Binding) : Session × Except SessionStatus Unit :=
  if s.status = .opened then ({ s with status := .bound, binding := some b }, .ok ())
  else (s, .error s.status)

/-- The system id in a bind request, nothing for other requests. -/
def boundSystemId (request : Frame) : String :=
  match request.pdu with
  | .bind _ b => b.systemId
  | _ => ""

/-- The status that a reply goes out with. An OK to a bind binds the session; if another bind was
faster, the client is told that it is bound already. -/
def settleStatus (s : Session) (request : Frame) (status : Status) : Session × Status :=
  match request.kind with
  | .bind type =>
    if status.isOk then
      match s.markBound ⟨type, boundSystemId request⟩ with
      | (s, .ok ()) => (s.measure (.bind type.name "success"), status)
      | (s, .error .bound) => (s, .alreadyBound)
      | (s, .error _) => (s, status)
    else (s.measure (.bind type.name "rejected"), status)
  | _ => (s, status)

/-- The response frame for a reply. A bind response has the server's system id, and names the
interface version if it is OK; a submit_sm response has the reply's message id. -/
def responseFrame (serverSystemId : String) (request : Frame) (status : Status)
    (messageId : Option String) : Frame :=
  let response := Frame.responseFor request status
  match response.pdu with
  | .bindResp type r =>
    let tlvs := if status.isOk then r.tlvs.insert .interfaceVersion34 else r.tlvs
    { response with pdu := .bindResp type { systemId := serverSystemId, tlvs } }
  | .submitSmResp r =>
    { response with pdu := .submitSmResp { r with messageId := messageId.getD r.messageId } }
  | _ => response

/-- Sends a reply through a responder, up to the frame that is to be written. A second reply is
refused. -/
def openReply (s : Session) (responder : Nat) (reply : Reply) : Session × Option Frame :=
  match s.responder? responder with
  | none => (s, none)
  | some r =>
    if r.isSent then (s.measure .duplicateResponse, none)
    else
      let s := { s with responders := s.responders.set responder { r with isSent := true } }
      let (s, status) := s.settleStatus r.request reply.status
      (s, some (responseFrame s.serverSystemId r.request status reply.messageId))

/-- Writes the frame of a reply. The reply to an unbind ends the session, written or not. -/
def closeReply (s : Session) (responder : Nat) (response : Frame) : Session :=
  let s := (s.transmit response).1
  match s.responder? responder with
  | some r => if r.request.command = .unbind then s.disconnect.1 else s
  | none => s

end Smsc.Session
