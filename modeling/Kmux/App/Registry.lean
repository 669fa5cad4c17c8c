import Kmux.App.Command
import Mathlib.Data.List.Pairwise

/-!
# The registry

The built-in commands, in the order in which they are tried, and the facts about them that the
resolution of a command line rests on. The registry is a constant, so they are decided.
-/

namespace Kmux.App

open Utf8Text

/-- One argument, by its texts. -/
def arg (name : String) (required : Bool) (completer : Completer) : ArgSpec :=
  ⟨name.toList, required, completer⟩

/-- One command, by its texts. -/
def command (name : String) (aliases : List String) (summary : String) (args : List ArgSpec) :
    CommandSpec :=
  ⟨name.toList, aliases.map String.toList, summary.toList, args⟩

def noArgs : List ArgSpec := []

def argsNameOpt : List ArgSpec := [arg "name" false .none, arg "cwd" false .none]

def argsNameReq : List ArgSpec := [arg "name" true .none]

def argsQueryReq : List ArgSpec := [arg "name|id|index" true .sessions]

def argsTargetReq : List ArgSpec := [arg "[user@]host[:port]" true .none]

def argsPeerReq : List ArgSpec := [arg "peer" true .none]

def argsThemeReq : List ArgSpec := [arg "name" true .themes]

def argsSignalReq : List ArgSpec := [arg "signal" true .signals]

def argsOnOff : List ArgSpec := [arg "on|off" true .onOff]

def argsTransportOpt : List ArgSpec := [arg "auto|quic|tcp-tls|uds|tcp" false .transports]

/-- All built-in commands. -/
def all : List CommandSpec :=
  [command "quit" ["q", "exit"] "Quit kmux" noArgs,
   command "redraw" [] "Force a full redraw" noArgs,
   command "help" ["?"] "Open the help overlay" noArgs,
   command "hud" [] "Toggle the HUD" noArgs,
   command "metrics" [] "Toggle the metrics overlay" noArgs,
   command "processes" ["ps", "top"] "Toggle the process overview (all sessions)" noArgs,
   command "clients" ["kick"] "Toggle the connected-clients view (this session)" noArgs,
   command "connection" ["conn"] "Toggle the connection inspector" noArgs,
   command "lock" ["unlock"] "Toggle input lock for the active pane" noArgs,
   command "snapshot" [] "Force snapshot rendering on/off" argsOnOff,
   command "theme" [] "Switch the colour theme" argsThemeReq,
   command "clear-history" [] "Wipe the command-palette history" noArgs,
   command "disconnect" [] "Drop the connection and show the Connect form" noArgs,
   command "reconnect" [] "Reconnect now (also skips the wait between automatic retries)" noArgs,
   command "launch" ["server"] "Open the session launcher (sessions & remotes)" noArgs,
   command "restore" [] "Open the launcher to restore a closed session" noArgs,
   command "connect" [] "Federate an SSH remote into the local hub" argsTargetReq,
   command "disconnect-remote" [] "Drop a federated remote's connection" argsPeerReq,
   command "transport" []
      "Override the transport protocol (auto|quic|tcp-tls|uds|tcp)" argsTransportOpt,
   command "session new" ["s new"] "Create a new session" argsNameOpt,
   command "session close" ["s close"] "Close the active session (with confirmation)" noArgs,
   command "session rename" ["s rename"] "Rename the active session" argsNameReq,
   command "session next" ["s next"] "Switch to the next session" noArgs,
   command "session prev" ["s prev"] "Switch to the previous session" noArgs,
   command "session switch" ["s switch"]
      "Switch to a session by name, id, or 1-based index" argsQueryReq,
   command "session list" ["s list"] "Open the session picker" noArgs,
   command "pane new" ["p new"] "Create a new pane in the active session" noArgs,
   command "pane close" ["p close"] "Close the active pane" noArgs,
   command "pane next" ["p next"] "Switch to the next pane" noArgs,
   command "pane prev" ["p prev"] "Switch to the previous pane" noArgs,
   command "signal" [] "Send a Unix signal to the active pane" argsSignalReq,
   command "daemon status" ["d status"] "Show the connected daemon's identity and version" noArgs,
   command "daemon ping" ["d ping"] "Force a session-list refresh round-trip" noArgs]

/-! ## What is decided -/

/-- No name is anybody else's name. -/
theorem pairwise_names :
    all.Pairwise fun spec spec' ↦ ∀ nm ∈ spec.names, nm ∉ spec'.names := by
  decide +kernel

/-- Names are in lower case, with no white space around them, of one word or two; and all names of a
command are of as many. -/
theorem names_spelled :
    ∀ spec ∈ all, ∀ nm ∈ spec.names, lower nm = nm ∧ nm ≠ [] ∧
      nm.head?.any isWhitespace = false ∧ nm.getLast?.any isWhitespace = false ∧
      wordCount nm = wordCount spec.name ∧ 1 ≤ wordCount nm ∧ wordCount nm ≤ 2 := by
  decide +kernel

/-- Names neither start nor end with white space. -/
theorem name_ends {spec : CommandSpec} (h : spec ∈ all) {nm : List Char} (hnm : nm ∈ spec.names) :
    (∀ c ∈ nm.head?, isWhitespace c = false) ∧ ∀ c ∈ nm.getLast?, isWhitespace c = false := by
  obtain ⟨-, -, hhead, hlast, -⟩ := names_spelled spec h nm hnm
  constructor
  · rintro c hc
    rwa [hc] at hhead
  · rintro c hc
    rwa [hc] at hlast

/-- A command that completes an argument takes no other argument. -/
theorem one_argument :
    ∀ spec ∈ all, ∀ a ∈ spec.args, a.completer ≠ .none → spec.args.length = 1 := by
  decide +kernel

/-- The name of a command that completes an argument, if it is one word, is not the first word of
another name. -/
theorem not_prefix_of_name :
    ∀ spec ∈ all, ∀ a ∈ spec.args, a.completer ≠ .none → ∀ nm ∈ spec.names, wordCount nm = 1 →
      ∀ spec' ∈ all, ∀ nm' ∈ spec'.names, wordCount nm' = 2 → ¬nm <+: nm' := by
  decide +kernel

/-- A name belongs to one command. -/
theorem eq_of_mem_names {spec spec' : CommandSpec} (h : spec ∈ all) (h' : spec' ∈ all)
    {nm : List Char} (hnm : nm ∈ spec.names) (hnm' : nm ∈ spec'.names) : spec = spec' := by
  by_contra hne
  have hsymm : Std.Symm fun spec spec' : CommandSpec ↦ ∀ nm ∈ spec.names, nm ∉ spec'.names :=
    ⟨fun _ _ hdisjoint nm hnm hnm' ↦ hdisjoint nm hnm' hnm⟩
  exact pairwise_names.forall h h' hne nm hnm hnm'

end Kmux.App
