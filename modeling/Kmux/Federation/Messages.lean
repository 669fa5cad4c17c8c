import Kmux.Daemon.ServerApp
import Kmux.Daemon.Graveyard

/-!
# What a hub and its peer say to each other

A hub is one client to its peer and speaks for every client of its own. What it does with a message
of a client is a property of the message, `federation`: it forwards it under the peer's ids and an
id of its own, or combines it with those of its other viewers, or answers it itself. The peer's
answers name the peer's sessions; `localizeReply` puts the hub's words back.

Of each message the model keeps the ids a hub reads or rewrites. Messages that differ in their
payload only are one constructor with a tag.
-/

namespace Kmux

namespace Federation

/-- The id of a request, and of its answer. -/
abbrev RequestId := ℕ

/-- A peer, by its stable name. -/
abbrev PeerId := String

/-- The codes of the errors that a hub makes up itself. -/
inductive ErrorCode
  | sessionNotFound
  | paneNotFound
  | inputLocked
  | sessionLimitReached
  | internalError
  deriving DecidableEq, Repr

/-- Who sent a message up the link: a client over one of its channels, or the hub itself. -/
inductive Requester
  | hub
  | client (id : ClientId) (ctrl : ChannelId)
  deriving DecidableEq, Repr

/-- The client this is, if it is one. -/
def Requester.clientId : Requester → Option ClientId
  | .hub => none
  | .client id _ => some id

/-! ## Upstream -/

/-- Requests about a session that carry an id. -/
inductive SessionRequest
  | sessionClose | sessionRename | paneCreate | tabCreate | tabClose | tabRename | paneSplit
  | clientList | kickClient
  deriving DecidableEq, Repr

/-- Requests about a session that carry none. -/
inductive SessionNudge
  | tabReorder | paneSwap | setLayoutRatios | setFocus
  /-- `known` is false for a scheme of a newer client, which decodes as `Unknown`. -/
  | applyLayoutScheme (known : Bool)
  deriving DecidableEq, Repr

/-- Requests about a pane that carry an id. -/
inductive PaneRequest
  | paneClose | fetchHistory | notify
  deriving DecidableEq, Repr

/-- What reaches the pane's terminal, and carries none. -/
inductive PaneInput
  | ptyInput | ptyKeyBatch | ptyPaste | signal
  deriving DecidableEq, Repr

/-- The messages that concern a hub. -/
inductive ClientMessage
  | sessionCreate (requestId : RequestId) (peer : Option PeerId)
  | sessionRequest (kind : SessionRequest) (requestId : RequestId) (word : WordId)
  | sessionNudge (kind : SessionNudge) (word : WordId)
  | paneRequest (kind : PaneRequest) (requestId : RequestId) (pane : PaneId)
  | paneInput (kind : PaneInput) (pane : PaneId)
  /-- A hub always asks for a snapshot, with no `last_seqno`. -/
  | attach (pane : PaneId) (size : TermSize)
  | detach (pane : PaneId)
  | resize (pane : PaneId) (size : TermSize)
  | requestInputLock (pane : PaneId)
  | releaseInputLock (pane : PaneId)
  | sessionList (requestId : RequestId)
  | ping (seq : ℕ)
  deriving DecidableEq, Repr

/-- What a forwarded message names. -/
inductive Target
  | session (word : WordId)
  | pane (pane : PaneId)
  | peer (peer : Option PeerId)
  deriving DecidableEq, Repr

/-- What a hub does with a message when the session it names is a peer's. -/
inductive Disposition
  | forward (target : Target) (requestId : Option RequestId)
  | aggregate
  | hub
  deriving DecidableEq, Repr

namespace ClientMessage

def federation : ClientMessage → Disposition
  | sessionCreate requestId (some peer) => .forward (.peer (some peer)) (some requestId)
  | sessionRequest _ requestId word => .forward (.session word) (some requestId)
  | sessionNudge _ word => .forward (.session word) none
  | paneRequest _ requestId pane => .forward (.pane pane) (some requestId)
  | paneInput _ pane => .forward (.pane pane) none
  | attach .. | detach .. | resize .. | requestInputLock .. | releaseInputLock .. => .aggregate
  | sessionCreate _ none | sessionList .. | ping .. => .hub

/-- The three messages that another viewer's input lock refuses. -/
def writesInput : ClientMessage → Bool
  | paneInput .ptyInput _ | paneInput .ptyKeyBatch _ | paneInput .ptyPaste _ => true
  | _ => false

/-- Whether the message is fit to send on: a layout scheme this hub does not know is not. -/
def sendable : ClientMessage → Bool
  | sessionNudge (.applyLayoutScheme known) _ => known
  | _ => true

/-- The id the message is sent under. -/
def requestId? : ClientMessage → Option RequestId
  | sessionCreate requestId _ | sessionRequest _ requestId _ | paneRequest _ requestId _
  | sessionList requestId => some requestId
  | _ => none

/-- The message with its target and its id rewritten in place, as the handles that `federation`
lends out are. -/
def rewrite : ClientMessage → Target → Option RequestId → ClientMessage
  | sessionCreate _ _, .peer peer, some id => sessionCreate id peer
  | sessionRequest kind _ _, .session word, some id => sessionRequest kind id word
  | sessionNudge kind _, .session word, _ => sessionNudge kind word
  | paneRequest kind _ _, .pane pane, some id => paneRequest kind id pane
  | paneInput kind _, .pane pane, _ => paneInput kind pane
  | msg, _, _ => msg

/-- Whether the message is one of the pings. -/
def isPing : ClientMessage → Bool
  | ping _ => true
  | _ => false

end ClientMessage

/-- The session a target names, by the word the requester knows it under. -/
def Target.localWord : Target → Option WordId
  | .session word => some word
  | .pane id => some id.1
  | .peer _ => none

/-- What a request is refused with when no link proxies its target. -/
def Target.missing : Target → ErrorCode × String
  | .session word => (.sessionNotFound, "session not found: " ++ word)
  | .pane id => (.paneNotFound, "pane not found: " ++ id.1 ++ "/" ++ toString id.2)
  | .peer name => (.internalError, "peer " ++ name.getD "" ++ " is not connected")

/-! ## Downstream -/

/-- A pane as it is listed: its full id, and its index once more. -/
structure PaneInfo where
  paneId : PaneId
  paneIndex : ℕ
  deriving DecidableEq, Repr

/-- A session as it is listed. -/
structure SessionEntry where
  wordId : WordId
  name : String
  peer : Option PeerId
  panes : List PaneInfo
  deriving DecidableEq, Repr

/-- The peer's answers, and the frames about the link itself. -/
inductive ServerMessage
  | sessionCreated (requestId : RequestId) (entry : SessionEntry)
  | sessionClosed (requestId : RequestId) (word : WordId)
  | paneCreated (requestId : RequestId) (pane : PaneId) (word : WordId)
  | paneClosed (requestId : RequestId) (pane : PaneId)
  | tabCreated (requestId : RequestId) (word : WordId)
  | tabClosed (requestId : RequestId) (word : WordId)
  | paneSplit (requestId : RequestId) (word : WordId) (newPane : PaneId)
  | historyLines (requestId : RequestId) (pane : PaneId)
  | clientListResult (requestId : RequestId) (word : WordId)
  | clientKicked (requestId : RequestId) (word : WordId)
  | notifyAccepted (requestId : RequestId)
  | error (requestId : Option RequestId) (code : ErrorCode) (message : String)
  | sessionRenamed (word : WordId)
  | inputLockGranted (pane : PaneId)
  | inputLockDenied (pane : PaneId) (holder : ClientId)
  | inputLockReleased (pane : PaneId)
  | sessionListResult (requestId : RequestId) (sessions : List SessionEntry)
  | pong (seq : ℕ)
  deriving DecidableEq, Repr

/-- What an answer is, apart from the ids in it. -/
inductive Kind
  | sessionCreated | sessionClosed | paneCreated | paneClosed | tabCreated | tabClosed | paneSplit
  | historyLines | clientListResult | clientKicked | notifyAccepted | error | sessionRenamed
  | inputLockGranted | inputLockDenied | inputLockReleased | sessionListResult | pong
  deriving DecidableEq, Repr

namespace ServerMessage

def kind : ServerMessage → Kind
  | sessionCreated .. => .sessionCreated
  | sessionClosed .. => .sessionClosed
  | paneCreated .. => .paneCreated
  | paneClosed .. => .paneClosed
  | tabCreated .. => .tabCreated
  | tabClosed .. => .tabClosed
  | paneSplit .. => .paneSplit
  | historyLines .. => .historyLines
  | clientListResult .. => .clientListResult
  | clientKicked .. => .clientKicked
  | notifyAccepted .. => .notifyAccepted
  | error .. => .error
  | sessionRenamed .. => .sessionRenamed
  | inputLockGranted .. => .inputLockGranted
  | inputLockDenied .. => .inputLockDenied
  | inputLockReleased .. => .inputLockReleased
  | sessionListResult .. => .sessionListResult
  | pong .. => .pong

/-- The id that an answer to a forwarded request carries. -/
def replyRequestId : ServerMessage → Option RequestId
  | sessionCreated requestId _ | sessionClosed requestId _ | paneCreated requestId _ _
  | paneClosed requestId _ | tabCreated requestId _ | tabClosed requestId _
  | paneSplit requestId _ _ | historyLines requestId _ | clientListResult requestId _
  | clientKicked requestId _ | notifyAccepted requestId => some requestId
  | error requestId _ _ => requestId
  | _ => none

/-- The requester's own id put back. -/
def setReplyRequestId (id : RequestId) : ServerMessage → ServerMessage
  | sessionCreated _ entry => sessionCreated id entry
  | sessionClosed _ word => sessionClosed id word
  | paneCreated _ pane word => paneCreated id pane word
  | paneClosed _ pane => paneClosed id pane
  | tabCreated _ word => tabCreated id word
  | tabClosed _ word => tabClosed id word
  | paneSplit _ word newPane => paneSplit id word newPane
  | historyLines _ pane => historyLines id pane
  | clientListResult _ word => clientListResult id word
  | clientKicked _ word => clientKicked id word
  | notifyAccepted _ => notifyAccepted id
  | error _ code message => error (some id) code message
  | msg => msg

/-- The peer's word in an answer that carries no id, if it names a session. -/
def replyWord : ServerMessage → Option WordId
  | sessionRenamed word => some word
  | inputLockGranted pane | inputLockDenied pane _ | inputLockReleased pane => some pane.1
  | _ => none

/-- The session an answer names, by the requester's word for it. -/
def localizeReply (word : WordId) : ServerMessage → ServerMessage
  | paneCreated requestId pane _ => paneCreated requestId (word, pane.2) word
  | paneClosed requestId pane => paneClosed requestId (word, pane.2)
  | historyLines requestId pane => historyLines requestId (word, pane.2)
  | inputLockGranted pane => inputLockGranted (word, pane.2)
  | inputLockDenied pane holder => inputLockDenied (word, pane.2) holder
  | inputLockReleased pane => inputLockReleased (word, pane.2)
  | clientListResult requestId _ => clientListResult requestId word
  | paneSplit requestId _ newPane => paneSplit requestId word (word, newPane.2)
  | sessionClosed requestId _ => sessionClosed requestId word
  | sessionRenamed _ => sessionRenamed word
  | tabCreated requestId _ => tabCreated requestId word
  | tabClosed requestId _ => tabClosed requestId word
  | clientKicked requestId _ => clientKicked requestId word
  | msg => msg

/-- The answers that carry no id. -/
def unrequested : ServerMessage → Bool
  | error none _ _ | sessionRenamed _ | inputLockGranted _ | inputLockDenied _ _
  | inputLockReleased _ => true
  | _ => false

@[simp] theorem kind_localizeReply (word : WordId) (msg : ServerMessage) :
    (msg.localizeReply word).kind = msg.kind := by cases msg <;> rfl

@[simp] theorem kind_setReplyRequestId (id : RequestId) (msg : ServerMessage) :
    (msg.setReplyRequestId id).kind = msg.kind := by cases msg <;> rfl

@[simp] theorem replyRequestId_localizeReply (word : WordId) (msg : ServerMessage) :
    (msg.localizeReply word).replyRequestId = msg.replyRequestId := by cases msg <;> rfl

@[simp] theorem unrequested_localizeReply (word : WordId) (msg : ServerMessage) :
    (msg.localizeReply word).unrequested = msg.unrequested := by
  cases msg with
  | error requestId code message => rcases requestId with _ | id <;> rfl
  | _ => rfl

/-- An answer that carried an id carries the requester's in its place, and so does every error. -/
theorem replyRequestId_setReplyRequestId {msg : ServerMessage}
    (h : msg.replyRequestId.isSome ∨ msg.kind = .error) (id : RequestId) :
    (msg.setReplyRequestId id).replyRequestId = some id := by
  cases msg with
  | sessionRenamed | inputLockGranted | inputLockDenied | inputLockReleased
  | sessionListResult | pong => rcases h with h | h <;> cases h
  | _ => rfl

theorem replyRequestId_eq_none_of_unrequested {msg : ServerMessage} (h : msg.unrequested) :
    msg.replyRequestId = none := by
  cases msg with
  | error requestId code message =>
    rcases requestId with _ | id
    · rfl
    · cases h
  | sessionRenamed | inputLockGranted | inputLockDenied | inputLockReleased => rfl
  | _ => cases h

end ServerMessage

/-- A request that the hub answers itself, at once. -/
structure Refusal where
  requestId : Option RequestId
  code : ErrorCode
  message : String
  deriving DecidableEq, Repr

/-- The `Error` a client is sent for it. -/
def Refusal.intoError (r : Refusal) : ServerMessage := .error r.requestId r.code r.message

/-- A peer's pane in its local form. -/
def localizePane (word : WordId) (pane : PaneInfo) : PaneInfo :=
  { pane with paneId := (word, pane.paneIndex) }

/-- A remote entry in its local form: a local word, local panes, and a name that shows the peer. -/
def localizeEntry (entry : SessionEntry) (word : WordId) (peer : PeerId) : SessionEntry :=
  { wordId := word, name := entry.name ++ " @ " ++ peer, peer := some peer
    panes := entry.panes.map (localizePane word) }

end Federation

end Kmux
