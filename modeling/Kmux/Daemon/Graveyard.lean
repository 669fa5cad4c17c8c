import Kmux.Lib.Run
import Mathlib.Algebra.Group.Nat.Defs
import Mathlib.Data.List.Sort

/-!
# Session words: the pool, the live map and the graveyard

A session is named by a word of the embedded word list. The sampler's pool is guarded by one lock,
the live map by a second and the graveyard of closed sessions by a third, and every operation on
sessions takes them one after another: `create_session` draws a word, spawns a shell and only then
enters the live map; `close_session` buries a snapshot under the live map's read lock, kills the
processes and only then leaves the live map; `restore_session` copies a snapshot, respawns it,
enters the live map and only then clears the graveyard entry; pruning evicts under the graveyard's
lock and releases under the sampler's. A `Task` is one such call between two of its lock sections,
and a step of the daemon is one lock section of one task, so that the runs are all the
interleavings.

Nothing else of a session is kept here: a session is its word, a graveyard entry its word and the
time of its closing. Respawning a shell is a choice of the event.

A daemon may stop at any point and a new one start from the files. These are written by
`checkpoint_state` and `persist_graveyard`; every version written so far is remembered, and a
restart takes any of them, since a crash can lose the latest ones.
-/

namespace Kmux

/-- A session's word, its identifier. -/
abbrev WordId := String

/-- The embedded word list and the graveyard's two caps. -/
structure Retention where
  /-- `WORDLIST_RAW`, line by line. -/
  wordlist : List WordId
  wordlist_nodup : wordlist.Nodup
  /-- `closed_session_keep`. -/
  keep : ℕ
  /-- `closed_session_ttl_ms`; 0 disables the age cap. -/
  ttlMs : ℕ

/-- A graveyard entry, as far as words go. -/
structure ClosedSession where
  word : WordId
  closedAtMs : ℕ
  deriving DecidableEq

/-- What a checkpoint says of words. -/
structure PersistedDaemonState where
  /-- The word of each persisted session. -/
  sessions : List WordId
  usedWords : List WordId
  deriving DecidableEq

/-- The limit on live sessions. -/
def maxSessions : ℕ := 1000

/-! ## The sampler -/

/-- `WordlistSampler::release`: only a word of the list goes back. -/
def Retention.release (r : Retention) (available : List WordId) (word : WordId) : List WordId :=
  if word ∈ r.wordlist then available ++ [word] else available

/-- `WordlistSampler::reserve`. -/
def reserve (available : List WordId) (word : WordId) : List WordId := available.erase word

/-! ## The retention caps -/

/-- `saturating_add` on `u64`. -/
def saturatingAdd (a b : ℕ) : ℕ := min (a + b) (2 ^ 64 - 1)

/-- Past the age cap at `now`. -/
def Retention.expired (r : Retention) (now : ℕ) (c : ClosedSession) : Bool :=
  decide (0 < r.ttlMs) && decide (saturatingAdd c.closedAtMs r.ttlMs < now)

/-- How many entries of a list the count cap removes, from the front. -/
def Retention.excess (r : Retention) (l : List ClosedSession) : ℕ := l.length - r.keep

/-- What `prune_graveyard` leaves. -/
def Retention.retained (r : Retention) (now : ℕ) (l : List ClosedSession) : List ClosedSession :=
  let fresh := l.filter fun c ↦ !r.expired now c
  fresh.drop (r.excess fresh)

/-- The words `prune_graveyard` evicts: the expired entries', then the oldest ones' beyond the
count cap. -/
def Retention.evicted (r : Retention) (now : ℕ) (l : List ClosedSession) : List WordId :=
  let fresh := l.filter fun c ↦ !r.expired now c
  (l.filter (r.expired now)).map ClosedSession.word ++
    (fresh.take (r.excess fresh)).map ClosedSession.word

/-- The entries `load_graveyard` keeps of a file, given the live words. -/
def Retention.loaded (r : Retention) (now : ℕ) (live : List WordId) (file : List ClosedSession) :
    List ClosedSession :=
  let kept := file.filter fun c ↦ decide (c.word ∉ live) && !r.expired now c
  let sorted := kept.insertionSort fun c d ↦ c.closedAtMs ≤ d.closedAtMs
  sorted.drop (r.excess sorted)

/-! ## The daemon -/

/-- A call between two of its lock sections. -/
inductive Task
  /-- `restore_inner`, about to reserve the used words, and the graveyard file for later. -/
  | restoreFrom (state : PersistedDaemonState) (file : List ClosedSession)
  /-- `restore_inner` with the sessions still to restore. -/
  | restoreInner (pending : List WordId) (file : List ClosedSession)
  /-- `load_graveyard` with its kept entries reserved and not yet installed. -/
  | loadGraveyard (kept : List ClosedSession)
  /-- `create_session` past the limit check. -/
  | createAdmitted
  /-- `create_session` with its word drawn. -/
  | createDrawn (word : WordId)
  /-- `close_session` holding the read lock under which it found its session. -/
  | closeFound (word : WordId)
  /-- `retain_closed_session` past its push. -/
  | closePushed (word : WordId)
  /-- `retain_closed_session`, past the eviction of the prune. -/
  | closeEvicted (word : WordId) (evicted : List WordId)
  /-- `close_session`, its read lock dropped, killing the processes. -/
  | closeRetained (word : WordId)
  /-- `sweep_graveyard` past the eviction. -/
  | sweepEvicted (evicted : List WordId)
  /-- `restore_session` with the snapshot in hand. -/
  | restoreFound (word : WordId)
  /-- `restore_session` past the insertion into the live map. -/
  | restoreInserted (word : WordId)
  deriving DecidableEq

/-- Part of the start of a daemon, before any request is served. -/
def Task.boots : Task → Bool
  | .restoreFrom .. | .restoreInner .. | .loadGraveyard .. => true
  | _ => false

/-- Holding the live map's read lock. -/
def Task.readsSessions : Task → Bool
  | .closeFound .. | .closePushed .. | .closeEvicted .. => true
  | _ => false

/-- The daemon's words, the calls in flight, and the files written so far. -/
structure Daemon where
  available : List WordId
  /-- The keys of the live map. -/
  sessions : List WordId
  closedSessions : List ClosedSession
  tasks : List Task
  /-- Every checkpoint ever written. -/
  checkpoints : List PersistedDaemonState
  /-- Every graveyard file ever written. -/
  graveyards : List (List ClosedSession)
  deriving DecidableEq

namespace Daemon

/-- The words of the graveyard. -/
def buried (s : Daemon) : List WordId := s.closedSessions.map ClosedSession.word

/-- A daemon starting from two files, nothing restored yet. -/
def boot (r : Retention) (s : Daemon) (state : PersistedDaemonState)
    (file : List ClosedSession) : Daemon :=
  { s with
    available := r.wordlist, sessions := [], closedSessions := [],
    tasks := [.restoreFrom state file] }

/-- The first daemon: there are no files yet. -/
def new (r : Retention) : Daemon where
  available := r.wordlist
  sessions := []
  closedSessions := []
  tasks := []
  checkpoints := [⟨[], []⟩]
  graveyards := [[]]

/-- `checkpoint_state`, as far as words go. -/
def checkpointState (s : Daemon) : PersistedDaemonState where
  sessions := s.sessions
  usedWords := s.sessions

def booting (s : Daemon) : Bool := s.tasks.any Task.boots

/-- The live map cannot be written. -/
def sessionsRead (s : Daemon) : Bool := s.tasks.any Task.readsSessions

end Daemon

/-! ## Lock sections -/

/-- One lock section of one call, with the choices it makes: which word is drawn, whether a shell
starts, what the clock says. -/
inductive WordEvent
  /-- The daemon stops, and a new one starts from two of the files. -/
  | restart (state : PersistedDaemonState) (file : List ClosedSession)
  /-- `restore_inner` reserves the used words. -/
  | reserveUsed (state : PersistedDaemonState) (file : List ClosedSession)
  /-- `restore_inner` restores the next session, or fails to. -/
  | restoreNext (word : WordId) (pending : List WordId) (file : List ClosedSession)
      (spawned : Bool)
  /-- `load_graveyard` chooses and reserves. -/
  | reserveLoaded (file : List ClosedSession) (now : ℕ)
  /-- `load_graveyard` installs. -/
  | installLoaded (kept : List ClosedSession)
  | checkpoint
  | persistGraveyard
  /-- `create_session` checks the limit. -/
  | createSession
  /-- `create_session` draws. -/
  | drawWord (index : ℕ)
  /-- `create_session` enters its session, or fails to spawn the pane. -/
  | createSpawn (word : WordId) (spawned : Bool)
  /-- `close_session` takes the read lock and finds its session. -/
  | closeSession (word : WordId)
  | retainPush (word : WordId) (closedAtMs : ℕ)
  | retainEvict (word : WordId) (now : ℕ)
  | retainRelease (word : WordId) (evicted : List WordId)
  /-- `close_session` leaves the live map. -/
  | closeRemove (word : WordId)
  | sweepEvict (now : ℕ)
  | sweepRelease (evicted : List WordId)
  /-- `restore_session` finds the entry. -/
  | restoreSession (word : WordId)
  /-- `restore_session` enters the live map, or fails to respawn. -/
  | restoreSpawn (word : WordId) (spawned : Bool)
  /-- `restore_session` clears the entry. -/
  | restoreDrop (word : WordId)

namespace Daemon

/-- Go on with a call that is in flight; nothing happens if it is not. -/
def resume (s : Daemon) (t : Task) (go : Daemon → Daemon) : Daemon :=
  if t ∈ s.tasks then go { s with tasks := s.tasks.erase t } else s

/-- A new request, once the daemon has started. -/
def serve (s : Daemon) (go : Daemon → Daemon) : Daemon := if s.booting then s else go s

/-- A step that writes the live map waits for its readers. -/
def write (s : Daemon) (go : Daemon → Daemon) : Daemon := if s.sessionsRead then s else go s

def spawnTask (s : Daemon) (t : Task) : Daemon := { s with tasks := t :: s.tasks }

/-- `insert` into the live map: an old session under the same word is replaced. -/
def insertSession (s : Daemon) (word : WordId) : Daemon :=
  { s with sessions := s.sessions.insert word }

/-- The push of `retain_closed_session`. -/
def bury (s : Daemon) (c : ClosedSession) : Daemon :=
  { s with closedSessions := s.closedSessions ++ [c] }

/-- The first half of `prune_graveyard`; the evicted words are `r.evicted now s.closedSessions`. -/
def evict (r : Retention) (s : Daemon) (now : ℕ) : Daemon :=
  { s with closedSessions := r.retained now s.closedSessions }

/-- The second half of `prune_graveyard`. -/
def releaseAll (r : Retention) (s : Daemon) (words : List WordId) : Daemon :=
  { s with available := words.foldl r.release s.available }

def reserveAll (s : Daemon) (words : List WordId) : Daemon :=
  { s with available := words.foldl reserve s.available }

def step (r : Retention) (s : Daemon) : WordEvent → Daemon
  | .restart state file =>
      if state ∈ s.checkpoints ∧ file ∈ s.graveyards then s.boot r state file else s
  | .reserveUsed state file =>
      s.resume (.restoreFrom state file) fun s ↦
        (s.reserveAll state.usedWords).spawnTask (.restoreInner state.sessions file)
  | .restoreNext word pending file true =>
      s.resume (.restoreInner (word :: pending) file) fun s ↦
        (s.insertSession word).spawnTask (.restoreInner pending file)
  | .restoreNext word pending file false =>
      s.resume (.restoreInner (word :: pending) file) fun s ↦
        (s.releaseAll r [word]).spawnTask (.restoreInner pending file)
  | .reserveLoaded file now =>
      s.resume (.restoreInner [] file) fun s ↦
        let kept := r.loaded now s.sessions file
        (s.reserveAll (kept.map ClosedSession.word)).spawnTask (.loadGraveyard kept)
  | .installLoaded kept =>
      s.resume (.loadGraveyard kept) fun s ↦ { s with closedSessions := kept }
  | .checkpoint => s.serve fun s ↦ { s with checkpoints := s.checkpointState :: s.checkpoints }
  | .persistGraveyard => s.serve fun s ↦ { s with graveyards := s.closedSessions :: s.graveyards }
  | .createSession =>
      s.serve fun s ↦ if s.sessions.length ≥ maxSessions then s else s.spawnTask .createAdmitted
  | .drawWord index =>
      s.resume .createAdmitted fun s ↦
        match s.available[index]? with
        | some word => (s.reserveAll [word]).spawnTask (.createDrawn word)
        -- The pool is exhausted: the call fails.
        | none => s
  | .createSpawn word true =>
      s.write fun s ↦ s.resume (.createDrawn word) fun s ↦ s.insertSession word
  -- A failed spawn returns with `?`; the drawn word is not given back.
  | .createSpawn word false => s.resume (.createDrawn word) id
  | .closeSession word =>
      s.serve fun s ↦ if word ∈ s.sessions then s.spawnTask (.closeFound word) else s
  | .retainPush word closedAtMs =>
      s.resume (.closeFound word) fun s ↦
        (s.bury ⟨word, closedAtMs⟩).spawnTask (.closePushed word)
  | .retainEvict word now =>
      s.resume (.closePushed word) fun s ↦
        (s.evict r now).spawnTask (.closeEvicted word (r.evicted now s.closedSessions))
  | .retainRelease word evicted =>
      s.resume (.closeEvicted word evicted) fun s ↦
        (s.releaseAll r evicted).spawnTask (.closeRetained word)
  | .closeRemove word =>
      s.write fun s ↦ s.resume (.closeRetained word) fun s ↦
        { s with sessions := s.sessions.erase word }
  -- An empty eviction returns at once; releasing nothing is the same.
  | .sweepEvict now =>
      s.serve fun s ↦
        (s.evict r now).spawnTask (.sweepEvicted (r.evicted now s.closedSessions))
  | .sweepRelease evicted =>
      s.resume (.sweepEvicted evicted) fun s ↦ s.releaseAll r evicted
  | .restoreSession word =>
      s.serve fun s ↦ if word ∈ s.buried then s.spawnTask (.restoreFound word) else s
  | .restoreSpawn word true =>
      s.write fun s ↦ s.resume (.restoreFound word) fun s ↦
        (s.insertSession word).spawnTask (.restoreInserted word)
  | .restoreSpawn word false => s.resume (.restoreFound word) id
  | .restoreDrop word =>
      s.resume (.restoreInserted word) fun s ↦
        { s with closedSessions := s.closedSessions.filter fun c ↦ c.word ≠ word }

end Daemon

end Kmux
