import Kmux.Daemon.Clients
import Kmux.Lib.Delimiter
import Kmux.Protocol.Vt

/-!
# Pasted text

Input for a pane is queued and turned into bytes when it is written, with the modes the emulator has
by then. This is done in the daemon, or in a worker process for panes that have one, and the two are
written separately. Pasted text is put between two markers if the program has asked for them; the
text itself is written as it is. A program that reads what is pasted up to the first end marker thus
gets the text if the text has no end marker in it, and else only what is before it.
-/

namespace Kmux

/-! ## Modes and inputs -/

def TermModes.bracketedPasteFlag : UInt16 := (1 : UInt16) <<< 1

/-- Does the program want the text that is pasted between markers? -/
def TermModes.bracketedPaste (modes : TermModes) : Bool := modes.bits &&& bracketedPasteFlag != 0

/-- The emulator of a pane at one time: its modes, and how it encodes a key. -/
structure TermState (KeyEvent : Type*) where
  modes : TermModes
  encodeKeyEvent : KeyEvent → List UInt8

/-- One input for a pane. -/
inductive QueuedInput (KeyEvent : Type*)
  | bytes (data : List UInt8)
  | keys (events : List KeyEvent)
  | paste (data : List UInt8)
  deriving DecidableEq, Repr

/-- What an engine is asked by the daemon to do with an input, in its worker process. -/
inductive InputRequest (KeyEvent : Type*)
  | input (data : List UInt8)
  | keys (events : List KeyEvent)
  | paste (data : List UInt8)
  deriving DecidableEq, Repr

namespace Paste

variable {KeyEvent : Type*}

def startMarker : List UInt8 := [0x1b, 0x5b, 0x32, 0x30, 0x30, 0x7e]

def endMarker : List UInt8 := [0x1b, 0x5b, 0x32, 0x30, 0x31, 0x7e]

/-! ## Who may write -/

inductive EnqueueError
  | eperm
  | queueRejected
  deriving DecidableEq, Repr

/-- `enqueue_input`, for a pane that is there and with its queue: what is handed to the engine. -/
def enqueueInput (inputMode : InputMode) (client : ClientId) (input : QueuedInput KeyEvent) :
    Except EnqueueError (Option (QueuedInput KeyEvent)) :=
  let admitted := match inputMode with
    | .unlocked => true
    | .locked holder => holder == client
    | .disabled => false
  if admitted then
    match input with
    | .keys [] => .ok none
    | input => .ok (some input)
  else .error .eperm

/-- `write_paste`. -/
def writePaste (inputMode : InputMode) (client : ClientId) (data : List UInt8) :
    Except EnqueueError (Option (QueuedInput KeyEvent)) :=
  enqueueInput inputMode client (.paste data)

/-! ## In the daemon -/

/-- The bytes for one input. -/
def inputBytes (ts : TermState KeyEvent) : QueuedInput KeyEvent → List UInt8
  | .bytes data => data
  | .keys events => events.flatMap ts.encodeKeyEvent
  | .paste data => if ts.modes.bracketedPaste then startMarker ++ data ++ endMarker else data

/-- The writes to the terminal for inputs, each with the emulator as it is then. -/
def ptyInputWriter (inputs : List (TermState KeyEvent × QueuedInput KeyEvent)) :
    List (List UInt8) :=
  (inputs.map fun p ↦ inputBytes p.1 p.2).filter (!·.isEmpty)

/-! ## In a worker -/

/-- What the worker is sent for an input. -/
def toRequest : QueuedInput KeyEvent → InputRequest KeyEvent
  | .bytes data => .input data
  | .keys events => .keys events
  | .paste data => .paste data

/-- The write for one request, if there is one. -/
def handleRequest (ts : TermState KeyEvent) : InputRequest KeyEvent → Option (List UInt8)
  | .input data => some data
  | .keys events =>
    let bytes := events.flatMap ts.encodeKeyEvent
    if bytes.isEmpty then none else some bytes
  | .paste data =>
    let out := if ts.modes.bracketedPaste then startMarker ++ data ++ endMarker else data
    some out

/-- The writes of the worker for the requests it is sent, each with the emulator as it is then. -/
def workerWrites (inputs : List (TermState KeyEvent × QueuedInput KeyEvent)) : List (List UInt8) :=
  inputs.filterMap fun p ↦ handleRequest p.1 (toRequest p.2)

/-! ## The two agree -/

theorem handleRequest_toRequest (ts : TermState KeyEvent) (input : QueuedInput KeyEvent) :
    ((handleRequest ts (toRequest input)).getD []) = inputBytes ts input := by
  cases input with
  | bytes data => rfl
  | keys events =>
    rw [toRequest, handleRequest, inputBytes]
    split_ifs with h
    · exact (List.isEmpty_iff.mp h).symm
    · rfl
  | paste data => rfl

/-- Whatever is queued, and however the emulator changes in between, the same bytes are written. -/
theorem flatten_ptyInputWriter (inputs : List (TermState KeyEvent × QueuedInput KeyEvent)) :
    (ptyInputWriter inputs).flatten = (workerWrites inputs).flatten := by
  induction inputs with
  | nil => rfl
  | cons p inputs ih =>
    have hdaemon : (ptyInputWriter (p :: inputs)).flatten =
        inputBytes p.1 p.2 ++ (ptyInputWriter inputs).flatten := by
      rw [ptyInputWriter, List.map_cons]
      cases hbytes : inputBytes p.1 p.2 with
      | nil => rw [List.filter_cons_of_neg (by simp)]; rfl
      | cons b bytes => rw [List.filter_cons_of_pos (by simp)]; rfl
    have hworker : (workerWrites (p :: inputs)).flatten =
        (handleRequest p.1 (toRequest p.2)).getD [] ++ (workerWrites inputs).flatten := by
      rw [workerWrites]
      cases hwrite : handleRequest p.1 (toRequest p.2) with
      | none =>
        rw [List.filterMap_cons]
        simp only [hwrite]
        rfl
      | some bytes =>
        rw [List.filterMap_cons]
        simp only [hwrite]
        rfl
    rw [hdaemon, hworker, handleRequest_toRequest, ih]

/-! ## What a program takes for pasted -/

/-- What a program reads after a start marker: the text up to the first end marker is pasted, and
the rest is typed. -/
def readPaste (s : List UInt8) : Option (List UInt8 × List UInt8) :=
  Delimiter.splitMark endMarker s

theorem unbordered_endMarker : Delimiter.Unbordered endMarker :=
  Delimiter.unbordered_cons (by decide)

/-- The daemon and the worker write the same bytes for every text in every mode. Without bracketed
paste they are the text. With it, they are the text between the markers as it is, and a program
takes all of it for pasted and nothing of it for typed exactly if it has no end marker in it. -/
theorem paste_bytes (ts : TermState KeyEvent) (text : List UInt8) :
    handleRequest ts (toRequest (.paste text)) = some (inputBytes ts (.paste text)) ∧
      (ts.modes.bracketedPaste = false → inputBytes ts (.paste text) = text) ∧
      (ts.modes.bracketedPaste = true →
        inputBytes ts (.paste text) = startMarker ++ text ++ endMarker ∧
        ∀ typed, readPaste (text ++ endMarker ++ typed) = some (text, typed) ↔
          ¬endMarker <:+: text) := by
  refine ⟨rfl, fun hmodes ↦ ?_, fun hmodes ↦ ⟨?_, fun typed ↦ ?_⟩⟩
  · rw [inputBytes, hmodes]
    rfl
  · rw [inputBytes, hmodes]
    rfl
  · exact Delimiter.splitMark_append_iff unbordered_endMarker (by decide) text typed

/-- With an end marker in the text, the rest of the text is typed. -/
theorem paste_escapes :
    ¬∀ (ts : TermState Unit) (text : List UInt8), ts.modes.bracketedPaste = true →
      ∃ body, inputBytes ts (.paste text) = startMarker ++ body ++ endMarker ∧
        ¬endMarker <:+: body := by
  intro h
  obtain ⟨body, hbytes, hbody⟩ :=
    h ⟨⟨TermModes.bracketedPasteFlag⟩, fun _ ↦ []⟩ (endMarker ++ [0x6c, 0x73, 0x0d]) (by decide)
  have hsame : inputBytes (⟨⟨TermModes.bracketedPasteFlag⟩, fun _ ↦ []⟩ : TermState Unit)
      (.paste (endMarker ++ [0x6c, 0x73, 0x0d])) =
        startMarker ++ (endMarker ++ [0x6c, 0x73, 0x0d]) ++ endMarker := rfl
  rw [hsame] at hbytes
  have heq := List.append_cancel_left (List.append_cancel_right hbytes)
  rw [← heq] at hbody
  exact hbody (List.prefix_append _ _).isInfix

end Paste

end Kmux
