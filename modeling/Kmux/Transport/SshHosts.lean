import Kmux.Lib.Traversal
import Kmux.Transport.SshConfig
import Mathlib.Data.Char
import Mathlib.Data.List.Lex
import Mathlib.Data.Nat.Notation

/-!
# Discovery of SSH hosts

The configuration files are read depth first, from the default paths along their includes. A file is
marked by its canonical path before it is read, and what is marked is not read again, so that a
cycle of includes ends where it closes. A directory needs no mark: of its
entries only files are read, and they are marked like any other.

`Extends` says what a call does to what has been found, and a line, a file and a directory each
extend it. The number of unmarked files bounds the depth of the calls.
-/

namespace Kmux.SshConfig

open Traversal Utf8Text

/-! ## Paths -/

/-- A path by its components. The `.` in front of a relative path is one of them, and `slash` says
that the path ends in a separator, or in a `.` after one. -/
structure ConfigPath where
  absolute : Bool
  comps : List (List UInt8)
  slash : Bool
deriving DecidableEq

def utf8 (s : List Char) : List UInt8 := s.flatMap String.utf8EncodeChar

/-- The parts between the separators. -/
def splitSlash : List UInt8 → List (List UInt8)
  | [] => [[]]
  | byte :: rest =>
    if byte = 47 then [] :: splitSlash rest
    else
      match splitSlash rest with
      | [] => [[byte]]
      | first :: parts => (byte :: first) :: parts

namespace ConfigPath

/-- The component `.`. -/
def dot : List UInt8 := [46]

/-- The component `..`. -/
def dotDot : List UInt8 := [46, 46]

def ofParts (absolute : Bool) (comps : List (List UInt8)) (slash : Bool) : ConfigPath where
  absolute := absolute
  comps := comps
  slash := slash && !comps.isEmpty

def parse (text : List Char) : ConfigPath :=
  match splitSlash (utf8 text) with
  | [] => ofParts false [] false
  | first :: rest =>
    ofParts ((utf8 text).head? == some 47)
      ((if first = [] then [] else [first]) ++ rest.filter fun comp ↦ comp ≠ [] ∧ comp ≠ dot)
      (rest.getLast? == some [] || rest.getLast? == some dot)

def join (base p : ConfigPath) : ConfigPath :=
  if p.absolute || (!base.absolute && base.comps.isEmpty) then p
  else
    let comps := p.comps.filter (· ≠ dot)
    ofParts base.absolute (base.comps ++ comps) (p.slash || comps.isEmpty)

def parent (p : ConfigPath) : Option ConfigPath :=
  if p.comps.isEmpty then none else some (ofParts p.absolute p.comps.dropLast false)

def fileName (p : ConfigPath) : Option (List UInt8) :=
  p.comps.getLast?.filter fun comp ↦ comp ≠ dot ∧ comp ≠ dotDot

/-- The path of an entry of a directory. -/
def child (dir : ConfigPath) (name : List UInt8) : ConfigPath :=
  dir.join (ofParts false [name] false)

/-- The order of the components, for paths that are both relative or both absolute. -/
def le (p q : ConfigPath) : Bool :=
  !q.comps.lex p.comps fun a b ↦ a.lex b fun x y ↦ decide (x.toNat < y.toNat)

def sort (paths : List ConfigPath) : List ConfigPath := paths.mergeSort le

end ConfigPath

/-! ## The file system -/

/-- A file system that nobody writes to. Any path of a file leads to one of finitely many files,
which is known by its canonical path, and the text of a file does not depend on the path. -/
structure FileSystem where
  isDir : ConfigPath → Bool
  isFile : ConfigPath → Bool
  /-- The names of the entries of a directory, in any order. -/
  readDir : ConfigPath → Option (List (List UInt8))
  canonicalize : ConfigPath → Option ConfigPath
  files : List ConfigPath
  contents : ConfigPath → Option (List Char)
  isFile_eq_false : ∀ p, isDir p = true → isFile p = false
  canonicalize_mem : ∀ p, isFile p = true → ∃ file ∈ files, canonicalize p = some file

namespace FileSystem

variable (fs : FileSystem)

def readToString (p : ConfigPath) : Option (List Char) := (fs.canonicalize p).bind fs.contents

/-- The mark of a file. -/
def canonical (p : ConfigPath) : ConfigPath := (fs.canonicalize p).getD p

/-- The files among the entries of a directory. -/
def childFiles (dir : ConfigPath) (names : List (List UInt8)) : List ConfigPath :=
  ConfigPath.sort ((names.map dir.child).filter fs.isFile)

end FileSystem

/-! ## The source's functions -/

/-- A line without the carriage return in front of its line feed. -/
def stripCarriageReturn (line : List Char) : List Char :=
  if line.getLast? = some '\r' then line.dropLast else line

def linesLoop (current : List Char) : List Char → List (List Char)
  | [] => if current = [] then [] else [current]
  | ch :: rest =>
    if ch = '\n' then stripCarriageReturn current :: linesLoop [] rest
    else linesLoop (current ++ [ch]) rest

/-- `str::lines`. -/
def lines (raw : List Char) : List (List Char) := linesLoop [] raw

structure HostEntry where
  hostname : Option (List Char)
  user : Option (List Char)
  sshPort : Option ℕ

/-- The hosts of `hosts.toml`, in the order in which the table happens to list them. -/
structure HostsConfig where
  hosts : List (List Char × HostEntry)
  nodup : (hosts.map Prod.fst).Nodup

inductive SshHostSource
  | kmuxHostsToml
  | openSshConfig (path : ConfigPath)

structure DiscoveredSshHost where
  hostAlias : List Char
  user : Option (List Char)
  hostname : Option (List Char)
  port : Option ℕ
  source : SshHostSource

def tomlHost (p : List Char × HostEntry) : DiscoveredSshHost where
  hostAlias := p.1
  user := p.2.user
  hostname := p.2.hostname
  port := p.2.sshPort
  source := .kmuxHostsToml

def openSshHost (path : ConfigPath) (name : List Char) : DiscoveredSshHost where
  hostAlias := name
  user := none
  hostname := none
  port := none
  source := .openSshConfig path

/-- Take off every `~/` in front. -/
def trimHome : List Char → List Char
  | '~' :: '/' :: rest => trimHome rest
  | value => value

def globInner : List UInt8 → List UInt8 → Bool
  | [], [] => true
  | [], _ :: _ => false
  | p :: pat, [] => p == 42 && globInner pat []
  | p :: pat, v :: val =>
    if p = 42 then globInner pat (v :: val) || globInner (p :: pat) val
    else if p = 63 then globInner pat val
    else p == v && globInner pat val

/-- `to_str`. -/
def toStr (name : List UInt8) : Option (List UInt8) :=
  if ByteArray.validateUTF8 ⟨name.toArray⟩ then some name else none

section Include

variable (fs : FileSystem) (home : Option ConfigPath)

def expandSimpleGlob (pattern : ConfigPath) : List ConfigPath :=
  match pattern.parent, pattern.fileName.bind toStr with
  | some parent, some filePat =>
    match fs.readDir parent with
    | none => []
    | some names =>
      ConfigPath.sort ((names.map parent.child).filter fun path ↦
        (path.fileName.bind toStr).any (globInner filePat))
  | _, _ => []

def expandInclude (currentFile : ConfigPath) (value : List Char) : List ConfigPath :=
  let path : Option ConfigPath :=
    if "~/".toList.isPrefixOf value then
      home.map fun home ↦ home.join (ConfigPath.parse (trimHome value))
    else
      let raw := ConfigPath.parse value
      if raw.absolute then some raw
      else some ((currentFile.parent.getD (ConfigPath.parse ['.'])).join raw)
  match path with
  | none => []
  | some path => if '*' ∉ value ∧ '?' ∉ value then [path] else expandSimpleGlob fs path

/-- What has been found so far: the canonical paths marked, the hosts, and the paths read. -/
structure Found where
  visited : List ConfigPath
  hosts : List DiscoveredSshHost
  reads : List ConfigPath

/-- A line of the file at `path`. -/
def parseLine (visit : ConfigPath → Found → Option Found) (path : ConfigPath) (found : Found)
    (line : List Char) : Option Found :=
  match readLine line with
  | none => some found
  | some (key, parts) =>
    if eqIgnoreAsciiCase key "Host".toList then
      some { found with
        hosts := found.hosts ++ (parts.filter explicitHostAlias).map (openSshHost path) }
    else if eqIgnoreAsciiCase key "Include".toList then
      parts.foldlM (fun found value ↦
        (expandInclude fs home path value).foldlM (fun found path ↦ visit path found) found) found
    else some found

/-- `parse_openssh_config`, with the depth of its calls as fuel. -/
def parseOpensshConfig : ℕ → ConfigPath → Found → Option Found
  | 0, _, _ => none
  | fuel + 1, path, found =>
    if fs.isDir path then
      match fs.readDir path with
      | none => some found
      | some names =>
        (fs.childFiles path names).foldlM (fun found child ↦ parseOpensshConfig fuel child found)
          found
    else if !fs.isFile path then some found
    else if fs.canonical path ∈ found.visited then some found
    else
      let found : Found :=
        { found with
          visited := found.visited ++ [fs.canonical path]
          reads := found.reads ++ [path] }
      match fs.readToString path with
      | none => some found
      | some raw => (lines raw).foldlM (parseLine fs home (parseOpensshConfig fuel) path) found

/-- The first host of each alias, `seen` apart. -/
def firstOfEach (seen : List (List Char)) : List DiscoveredSshHost → List DiscoveredSshHost
  | [] => []
  | host :: hosts =>
    if host.hostAlias ∈ seen then firstOfEach seen hosts
    else host :: firstOfEach (host.hostAlias :: seen) hosts

def dedupeHosts (hosts : List DiscoveredSshHost) : List DiscoveredSshHost :=
  (firstOfEach [] hosts).mergeSort fun a b ↦ decide (a.hostAlias ≤ b.hostAlias)

/-- The hosts that are discovered, and the paths that are read for it. A table that does not parse
counts as an empty one. -/
def discoverSshHostsWithConfig (config : Option HostsConfig) (paths : List ConfigPath)
    (fuel : ℕ) : Option (List DiscoveredSshHost × List ConfigPath) :=
  let hosts := (config.elim [] HostsConfig.hosts).map tomlHost
  (paths.foldlM (fun found path ↦ parseOpensshConfig fs home fuel path found)
    ⟨[], hosts, []⟩).map fun found ↦ (dedupeHosts found.hosts, found.reads)

def defaultSshConfigPaths : List ConfigPath :=
  (home.map fun home ↦ (home.join (.parse ".ssh".toList)).join (.parse "config".toList)).toList ++
    [.parse "/etc/ssh/ssh_config".toList]

def discoverSshHosts (config : Option HostsConfig) (fuel : ℕ) :
    Option (List DiscoveredSshHost × List ConfigPath) :=
  discoverSshHostsWithConfig fs home config (defaultSshConfigPaths home) fuel

end Include

/-! ## What is read and what it holds -/

section Files

variable (fs : FileSystem) (home : Option ConfigPath)

/-- The lines of a file, none if it cannot be read. -/
def fileLines (path : ConfigPath) : List (List Char) := (fs.readToString path).elim [] lines

/-- The hosts on a line. -/
def lineHosts (path : ConfigPath) (line : List Char) : List DiscoveredSshHost :=
  (lineAliases line).map (openSshHost path)

/-- The paths a line includes. -/
def lineIncludes (path : ConfigPath) (line : List Char) : List ConfigPath :=
  match readLine line with
  | none => []
  | some (key, parts) =>
    if eqIgnoreAsciiCase key "Host".toList then []
    else if eqIgnoreAsciiCase key "Include".toList then
      parts.flatMap (expandInclude fs home path)
    else []

def includes (path : ConfigPath) : List ConfigPath :=
  (fileLines fs path).flatMap (lineIncludes fs home path)

/-- The files at a path: itself, or those in the directory. -/
def filesAt (path : ConfigPath) : List ConfigPath :=
  if fs.isDir path then (fs.readDir path).elim [] (fs.childFiles path)
  else if fs.isFile path then [path] else []

/-- What can be reached from the paths along includes. -/
inductive Reached (paths : List ConfigPath) : ConfigPath → Prop
  | root {path file : ConfigPath} : path ∈ paths → file ∈ filesAt fs path → Reached paths file
  | include {source path file : ConfigPath} : Reached paths source →
      path ∈ includes fs home source → file ∈ filesAt fs path → Reached paths file

/-- The files at the path are marked. -/
def Covers (found : Found) (path : ConfigPath) : Prop :=
  ∀ file ∈ filesAt fs path, fs.canonical file ∈ found.visited

/-- The file has been read to its end. -/
structure Done (found : Found) (path : ConfigPath) : Prop where
  hosts : ∀ line ∈ fileLines fs path, ∀ host ∈ lineHosts path line, host ∈ found.hosts
  includes : ∀ line ∈ fileLines fs path, ∀ p ∈ lineIncludes fs home path line, Covers fs found p

/-- The marks are those of the paths read, no two the same. -/
structure Marked (found : Found) : Prop where
  visited : found.visited = found.reads.map fs.canonical
  nodup : found.visited.Nodup

/-- What a call does to what has been found: what it reads it reads to the end and has reached, and
its hosts come from files that are read. -/
structure Extends (paths : List ConfigPath) (a b : Found) : Prop where
  visited : a.visited ⊆ b.visited
  reads : a.reads ⊆ b.reads
  hosts : a.hosts <+: b.hosts
  done : ∀ path ∈ b.reads, path ∈ a.reads ∨ Done fs home b path
  reached : ∀ path ∈ b.reads, path ∈ a.reads ∨ Reached fs home paths path
  origin : ∀ host ∈ b.hosts, host ∈ a.hosts ∨
    ∃ path ∈ b.reads, ∃ line ∈ fileLines fs path, host ∈ lineHosts path line
  marked : Marked fs a → Marked fs b

end Files

section Extends

variable {fs : FileSystem} {home : Option ConfigPath} {paths : List ConfigPath} {a b c : Found}

theorem Covers.mono {path : ConfigPath} (hvisited : a.visited ⊆ b.visited)
    (h : Covers fs a path) : Covers fs b path := fun file hfile ↦ hvisited (h file hfile)

theorem Done.mono {path : ConfigPath} (hext : Extends fs home paths a b)
    (h : Done fs home a path) : Done fs home b path where
  hosts line hline host hhost := hext.hosts.subset (h.hosts line hline host hhost)
  includes line hline p hp := (h.includes line hline p hp).mono hext.visited

namespace Extends

theorem refl (a : Found) : Extends fs home paths a a where
  visited := List.Subset.refl _
  reads := List.Subset.refl _
  hosts := List.prefix_rfl
  done _ h := .inl h
  reached _ h := .inl h
  origin _ h := .inl h
  marked h := h

theorem trans (hab : Extends fs home paths a b) (hbc : Extends fs home paths b c) :
    Extends fs home paths a c where
  visited := List.Subset.trans hab.visited hbc.visited
  reads := List.Subset.trans hab.reads hbc.reads
  hosts := hab.hosts.trans hbc.hosts
  done path h := (hbc.done path h).elim
    (fun h ↦ (hab.done path h).imp_right (Done.mono hbc)) .inr
  reached path h := (hbc.reached path h).elim (hab.reached path) .inr
  origin host h := by
    rcases hbc.origin host h with h | h
    · refine (hab.origin host h).imp_right ?_
      rintro ⟨path, hpath, hline⟩
      exact ⟨path, hbc.reads hpath, hline⟩
    · exact .inr h
  marked h := hbc.marked (hab.marked h)

end Extends

/-- A loop whose every step ends and extends what has been found, given enough fuel. What a step has
settled stays settled. -/
theorem foldlM_extends {α : Type*} (step : ℕ → Found → α → Option Found) (R : α → Found → Prop)
    {enough : ℕ} {l : List α} {start : Found}
    (hmono : ∀ x a b, Extends fs home paths a b → R x a → R x b)
    (hstep : ∀ x ∈ l, ∀ a, Extends fs home paths start a →
      ∃ b, (∀ n, enough ≤ n → step n a x = some b) ∧ Extends fs home paths a b ∧ R x b) :
    ∃ b, (∀ n, enough ≤ n → l.foldlM (step n) start = some b) ∧
      Extends fs home paths start b ∧ ∀ x ∈ l, R x b := by
  induction l generalizing start with
  | nil => exact ⟨start, fun n _ ↦ rfl, .refl start, fun x hx ↦ absurd hx List.not_mem_nil⟩
  | cons x l ih =>
    obtain ⟨mid, hmid, hextends, hx⟩ := hstep x List.mem_cons_self start (.refl start)
    obtain ⟨b, hb, hrest, hl⟩ := ih fun y hy a ha ↦
      hstep y (List.mem_cons_of_mem x hy) a (hextends.trans ha)
    refine ⟨b, fun n hn ↦ ?_, hextends.trans hrest, fun y hy ↦ ?_⟩
    · rw [List.foldlM_cons, hmid n hn]
      exact hb n hn
    · rcases List.mem_cons.mp hy with rfl | hy
      · exact hmono _ _ _ hrest hx
      · exact hl y hy

end Extends

/-! ## A line -/

section Read

variable {fs : FileSystem} {home : Option ConfigPath} {paths : List ConfigPath}

/-- Enough fuel settles a path: it ends, and the files there are marked. -/
def Settles (fs : FileSystem) (home : Option ConfigPath) (paths : List ConfigPath) (enough : ℕ)
    (path : ConfigPath) (a : Found) : Prop :=
  ∃ b, (∀ n, enough ≤ n → parseOpensshConfig fs home n path a = some b) ∧
    Extends fs home paths a b ∧ Covers fs b path

theorem foldlM_flatMap {α β σ : Type*} (f : σ → β → Option σ) (g : α → List β) (l : List α)
    (init : σ) :
    (l.flatMap g).foldlM f init = l.foldlM (fun s x ↦ (g x).foldlM f s) init := by
  induction l generalizing init with
  | nil => rfl
  | cons x l ih =>
    rw [List.flatMap_cons, List.foldlM_append, List.foldlM_cons]
    exact congrArg _ (funext ih)

/-- A line extends what has been found by its hosts and by what it includes. -/
theorem parseLine_extends {enough : ℕ} {path : ConfigPath} {line : List Char} {a : Found}
    (hline : line ∈ fileLines fs path) (hpath : path ∈ a.reads)
    (hsettles : ∀ p ∈ lineIncludes fs home path line, ∀ a', Extends fs home paths a a' →
      Settles fs home paths enough p a') :
    ∃ b, (∀ n, enough ≤ n → parseLine fs home (parseOpensshConfig fs home n) path a line = some b) ∧
      Extends fs home paths a b ∧ (∀ host ∈ lineHosts path line, host ∈ b.hosts) ∧
      ∀ p ∈ lineIncludes fs home path line, Covers fs b p := by
  have hnone : lineHosts path line = [] → lineIncludes fs home path line = [] →
      Extends fs home paths a a ∧ (∀ host ∈ lineHosts path line, host ∈ a.hosts) ∧
      ∀ p ∈ lineIncludes fs home path line, Covers fs a p := by
    intro hhosts hincludes
    rw [hhosts, hincludes]
    exact ⟨.refl a, fun host h ↦ absurd h List.not_mem_nil, fun p h ↦ absurd h List.not_mem_nil⟩
  cases hread : readLine line with
  | none =>
    exact ⟨a, fun n _ ↦ by rw [parseLine, hread],
      hnone (by simp [lineHosts, lineAliases, hread]) (by simp [lineIncludes, hread])⟩
  | some entry =>
    obtain ⟨key, parts⟩ := entry
    by_cases hhost : eqIgnoreAsciiCase key "Host".toList = true
    · -- a host line: its hosts come from this file
      have hhosts : lineHosts path line =
          (parts.filter explicitHostAlias).map (openSshHost path) := by
        rw [lineHosts, lineAliases, hread]
        exact congrArg _ (if_pos hhost)
      have hincludes : lineIncludes fs home path line = [] := by
        rw [lineIncludes, hread]
        exact if_pos hhost
      refine ⟨{ a with hosts := a.hosts ++ lineHosts path line }, fun n _ ↦ ?_, ?_,
        fun host h ↦ List.mem_append_right _ h, fun p h ↦ ?_⟩
      · rw [parseLine, hread, hhosts]
        exact if_pos hhost
      · refine ⟨List.Subset.refl _, List.Subset.refl _, List.prefix_append _ _, fun _ h ↦ .inl h,
          fun _ h ↦ .inl h, fun host h ↦ ?_, fun h ↦ ⟨h.visited, h.nodup⟩⟩
        exact (List.mem_append.mp h).imp_right fun h ↦ ⟨path, hpath, line, hline, h⟩
      · rw [hincludes] at h
        exact absurd h List.not_mem_nil
    · have hhosts : lineHosts path line = [] := by
        rw [lineHosts, lineAliases, hread]
        exact congrArg (List.map _) (if_neg hhost)
      by_cases hinclude : eqIgnoreAsciiCase key "Include".toList = true
      · have hincludes : lineIncludes fs home path line =
            parts.flatMap (expandInclude fs home path) := by
          rw [lineIncludes, hread]
          exact (if_neg hhost).trans (if_pos hinclude)
        obtain ⟨b, hb, hextends, hcovers⟩ := foldlM_extends
          (fun n found p ↦ parseOpensshConfig fs home n p found)
          (fun p found ↦ Covers fs found p) (fun p a b hab h ↦ h.mono hab.visited) hsettles
        refine ⟨b, fun n hn ↦ ?_, hextends, ?_, hcovers⟩
        · rw [← hb n hn, hincludes, foldlM_flatMap, parseLine, hread]
          exact (if_neg hhost).trans (if_pos hinclude)
        · rw [hhosts]
          exact fun host h ↦ absurd h List.not_mem_nil
      · have hincludes : lineIncludes fs home path line = [] := by
          rw [lineIncludes, hread]
          exact (if_neg hhost).trans (if_neg hinclude)
        refine ⟨a, fun n _ ↦ ?_, hnone hhosts hincludes⟩
        rw [parseLine, hread]
        exact (if_neg hhost).trans (if_neg hinclude)

/-! ## A file and a directory -/

/-- The files that are not marked. -/
def unvisited (fs : FileSystem) (found : Found) : ℕ :=
  (fs.files.filter (· ∉ found.visited)).length

theorem unvisited_le {a b : Found} (h : a.visited ⊆ b.visited) :
    unvisited fs b ≤ unvisited fs a := by
  refine List.Sublist.length_le (List.monotone_filter_right _ fun file hfile ↦ ?_)
  rw [decide_eq_true_iff] at hfile ⊢
  exact fun hmem ↦ hfile (h hmem)

theorem unvisited_lt {a b : Found} (h : a.visited ⊆ b.visited) {file : ConfigPath}
    (hfile : file ∈ fs.files) (ha : file ∉ a.visited) (hb : file ∈ b.visited) :
    unvisited fs b < unvisited fs a := by
  have heq : fs.files.filter (· ∉ b.visited) =
      (fs.files.filter (· ∉ a.visited)).filter (· ∉ b.visited) := by
    rw [List.filter_filter]
    refine List.filter_congr fun p _ ↦ ?_
    by_cases hp : p ∈ b.visited
    · simp [hp]
    · have ha : p ∉ a.visited := fun ha ↦ hp (h ha)
      simp [hp, ha]
  rw [unvisited, unvisited, heq]
  refine List.length_filter_lt_length_iff_exists.mpr ⟨file, ?_, by simpa using hb⟩
  exact List.mem_filter.mpr ⟨hfile, by simpa using ha⟩

/-- The depth of calls that a path needs: two for each file that can still be marked. -/
def depth (fs : FileSystem) (path : ConfigPath) (found : Found) : ℕ :=
  2 * unvisited fs found + if fs.isDir path then 2 else 1

theorem depth_of_isFile {path : ConfigPath} (hfile : fs.isFile path = true) (found : Found) :
    depth fs path found = 2 * unvisited fs found + 1 := by
  have hdir : ¬fs.isDir path = true := fun hdir ↦ by
    rw [fs.isFile_eq_false path hdir] at hfile
    cases hfile
  rw [depth, if_neg hdir]

theorem filesAt_of_isFile {path : ConfigPath} (hfile : fs.isFile path = true) :
    filesAt fs path = [path] := by
  have hdir : ¬fs.isDir path = true := fun hdir ↦ by
    rw [fs.isFile_eq_false path hdir] at hfile
    cases hfile
  rw [filesAt, if_neg hdir, if_pos hfile]

theorem isFile_of_mem_childFiles {dir : ConfigPath} {names : List (List UInt8)} {file : ConfigPath}
    (h : file ∈ fs.childFiles dir names) : fs.isFile file = true := by
  rw [FileSystem.childFiles, ConfigPath.sort, List.mem_mergeSort] at h
  exact (List.mem_filter.mp h).2

theorem isFile_of_mem_filesAt {path file : ConfigPath} (h : file ∈ filesAt fs path) :
    fs.isFile file = true := by
  rw [filesAt] at h
  split_ifs at h with hdir hfile
  · cases hnames : fs.readDir path with
    | none =>
      rw [hnames] at h
      exact absurd h List.not_mem_nil
    | some names =>
      rw [hnames] at h
      exact isFile_of_mem_childFiles h
  · exact List.mem_singleton.mp h ▸ hfile
  · exact absurd h List.not_mem_nil

/-- A path is marked and noted as read. -/
def mark (fs : FileSystem) (path : ConfigPath) (found : Found) : Found :=
  { found with
    visited := found.visited ++ [fs.canonical path]
    reads := found.reads ++ [path] }

/-- A file that was not marked is read to its end. -/
theorem Extends.of_mark {path : ConfigPath} {a b : Found} (hnew : fs.canonical path ∉ a.visited)
    (hreached : Reached fs home paths path) (hext : Extends fs home paths (mark fs path a) b)
    (hdone : Done fs home b path) : Extends fs home paths a b where
  visited _ h := hext.visited (List.mem_append_left _ h)
  reads _ h := hext.reads (List.mem_append_left _ h)
  hosts := hext.hosts
  done p h := by
    rcases hext.done p h with h | h
    · rcases List.mem_append.mp h with h | h
      · exact .inl h
      · exact .inr (List.mem_singleton.mp h ▸ hdone)
    · exact .inr h
  reached p h := by
    rcases hext.reached p h with h | h
    · rcases List.mem_append.mp h with h | h
      · exact .inl h
      · exact .inr (List.mem_singleton.mp h ▸ hreached)
    · exact .inr h
  origin := hext.origin
  marked h := by
    refine hext.marked ⟨?_, ?_⟩
    · rw [mark, List.map_append, h.visited]
      rfl
    · refine h.nodup.append (List.nodup_singleton _) fun p hp hp' ↦ ?_
      exact hnew (List.mem_singleton.mp hp' ▸ hp)

theorem settles_succ {enough : ℕ} {path : ConfigPath} {a b : Found}
    (h : ∀ n, enough ≤ n → parseOpensshConfig fs home (n + 1) path a = some b)
    (hext : Extends fs home paths a b) (hcovers : Covers fs b path) :
    Settles fs home paths (enough + 1) path a := by
  refine ⟨b, fun n hn ↦ ?_, hext, hcovers⟩
  obtain ⟨m, rfl⟩ : ∃ m, n = m + 1 := ⟨n - 1, by omega⟩
  exact h m (by omega)

/-- The entries of a directory are files, and need one call less each. -/
theorem settles_directory {enough : ℕ} {path : ConfigPath} {a : Found}
    (hdir : fs.isDir path = true)
    (ih : ∀ child ∈ filesAt fs path, ∀ a', Extends fs home paths a a' →
      Settles fs home paths enough child a') :
    Settles fs home paths (enough + 1) path a := by
  have hfiles : filesAt fs path = (fs.readDir path).elim [] (fs.childFiles path) := if_pos hdir
  cases hnames : fs.readDir path with
  | none =>
    rw [hnames] at hfiles
    refine settles_succ (b := a) (fun n _ ↦ ?_) (.refl a) fun file hfile ↦ ?_
    · rw [parseOpensshConfig, if_pos hdir, hnames]
    · rw [hfiles] at hfile
      exact absurd hfile List.not_mem_nil
  | some names =>
    rw [hnames, Option.elim_some] at hfiles
    obtain ⟨b, hb, hextends, hcovers⟩ := foldlM_extends
      (fun n found child ↦ parseOpensshConfig fs home n child found)
      (fun child found ↦ Covers fs found child) (fun child a b hab h ↦ h.mono hab.visited) ih
    refine settles_succ (b := b) (fun n hn ↦ ?_) hextends fun file hfile ↦ ?_
    · rw [parseOpensshConfig, if_pos hdir, hnames, ← hb n hn, hfiles]
    · have hat := filesAt_of_isFile (isFile_of_mem_childFiles (hfiles ▸ hfile))
      exact hcovers file hfile file (hat ▸ List.mem_singleton_self file)

/-- A file that is not marked is marked and read, and what it includes needs two calls less. -/
theorem settles_file {enough : ℕ} {path : ConfigPath} {a : Found} (hfile : fs.isFile path = true)
    (hreached : Reached fs home paths path)
    (ih : fs.canonical path ∉ a.visited → ∀ p ∈ includes fs home path, ∀ a',
      Extends fs home paths (mark fs path a) a' → Settles fs home paths enough p a') :
    Settles fs home paths (enough + 1) path a := by
  have hat := filesAt_of_isFile hfile
  have hdir : ¬fs.isDir path = true := fun hdir ↦ by
    rw [fs.isFile_eq_false path hdir] at hfile
    cases hfile
  have hnot : ¬(!fs.isFile path) = true := by
    rw [hfile]
    decide
  by_cases hseen : fs.canonical path ∈ a.visited
  · refine settles_succ (b := a) (fun n _ ↦ ?_) (.refl a) fun file h ↦ ?_
    · rw [parseOpensshConfig, if_neg hdir, if_neg hnot, if_pos hseen]
    · rw [hat, List.mem_singleton] at h
      exact h ▸ hseen
  · have hparse : ∀ n, parseOpensshConfig fs home (n + 1) path a =
        (fileLines fs path).foldlM (parseLine fs home (parseOpensshConfig fs home n) path)
          (mark fs path a) := by
      intro n
      rw [parseOpensshConfig, if_neg hdir, if_neg hnot, if_neg hseen, fileLines]
      cases fs.readToString path with
      | none => rfl
      | some raw => rfl
    have hread : path ∈ (mark fs path a).reads :=
      List.mem_append_right _ (List.mem_singleton_self path)
    obtain ⟨b, hb, hextends, hdone⟩ := foldlM_extends
      (fun n ↦ parseLine fs home (parseOpensshConfig fs home n) path)
      (fun line found ↦ (∀ host ∈ lineHosts path line, host ∈ found.hosts) ∧
        ∀ p ∈ lineIncludes fs home path line, Covers fs found p)
      (fun line a b hab h ↦ ⟨fun host hhost ↦ hab.hosts.subset (h.1 host hhost),
        fun p hp ↦ (h.2 p hp).mono hab.visited⟩)
      fun line hline a' ha' ↦ parseLine_extends hline (ha'.reads hread) fun p hp a'' ha'' ↦
        ih hseen p (List.mem_flatMap.mpr ⟨line, hline, hp⟩) a'' (ha'.trans ha'')
    refine settles_succ (b := b) (fun n hn ↦ (hparse n).trans (hb n hn)) ?_ fun file h ↦ ?_
    · exact .of_mark hseen hreached hextends
        ⟨fun line hline ↦ (hdone line hline).1, fun line hline ↦ (hdone line hline).2⟩
    · rw [hat, List.mem_singleton] at h
      exact h ▸ hextends.visited (List.mem_append_right _ (List.mem_singleton_self _))

/-- With the calls deep enough every path is settled. -/
theorem parse_settles (enough : ℕ) (path : ConfigPath) (a : Found)
    (henough : depth fs path a ≤ enough)
    (hreached : ∀ file ∈ filesAt fs path, Reached fs home paths file) :
    Settles fs home paths enough path a := by
  induction enough generalizing path a with
  | zero =>
    rw [depth] at henough
    split_ifs at henough <;> omega
  | succ enough ih =>
    by_cases hdir : fs.isDir path = true
    · rw [depth, if_pos hdir] at henough
      refine settles_directory hdir fun child hchild a' ha' ↦ ?_
      have hchildFile := isFile_of_mem_filesAt hchild
      have hle : unvisited fs a' ≤ unvisited fs a := unvisited_le ha'.visited
      refine ih child a' ?_ fun file hfile ↦ ?_
      · rw [depth_of_isFile hchildFile]
        omega
      · rw [filesAt_of_isFile hchildFile, List.mem_singleton] at hfile
        exact hfile ▸ hreached child hchild
    · by_cases hfile : fs.isFile path = true
      · rw [depth_of_isFile hfile] at henough
        have hat := filesAt_of_isFile hfile
        have hpath := hreached path (hat ▸ List.mem_singleton_self path)
        refine settles_file hfile hpath fun hseen p hp a' ha' ↦ ih p a' ?_ fun file hmem ↦
          hpath.include hp hmem
        obtain ⟨file, hmem, heq⟩ := fs.canonicalize_mem path hfile
        have hcanonical : fs.canonical path = file := by rw [FileSystem.canonical, heq]; rfl
        have hlt : unvisited fs a' < unvisited fs a :=
          unvisited_lt (fun q hq ↦ ha'.visited (List.mem_append_left _ hq)) hmem
            (hcanonical ▸ hseen) (hcanonical ▸ ha'.visited
              (List.mem_append_right _ (List.mem_singleton_self _)))
        rw [depth]
        split_ifs <;> omega
      · refine settles_succ (b := a) (fun n _ ↦ ?_) (.refl a) fun file h ↦ ?_
        · have hnot : (!fs.isFile path) = true := by simpa using hfile
          rw [parseOpensshConfig, if_neg hdir, if_pos hnot]
        · rw [filesAt, if_neg hdir, if_neg hfile] at h
          exact absurd h List.not_mem_nil

end Read

/-! ## One host for each alias -/

theorem firstOfEach_of_mem {seen : List (List Char)} {host : DiscoveredSshHost}
    (h : host.hostAlias ∈ seen) (hosts : List DiscoveredSshHost) :
    firstOfEach seen (host :: hosts) = firstOfEach seen hosts := if_pos h

theorem firstOfEach_of_notMem {seen : List (List Char)} {host : DiscoveredSshHost}
    (h : host.hostAlias ∉ seen) (hosts : List DiscoveredSshHost) :
    firstOfEach seen (host :: hosts) = host :: firstOfEach (host.hostAlias :: seen) hosts :=
  if_neg h

theorem mem_of_mem_firstOfEach {seen : List (List Char)} {hosts : List DiscoveredSshHost}
    {host : DiscoveredSshHost} (h : host ∈ firstOfEach seen hosts) :
    host ∈ hosts ∧ host.hostAlias ∉ seen := by
  induction hosts generalizing seen with
  | nil => exact absurd h List.not_mem_nil
  | cons first hosts ih =>
    by_cases hseen : first.hostAlias ∈ seen
    · rw [firstOfEach_of_mem hseen] at h
      exact (ih h).imp_left (List.mem_cons_of_mem first)
    · rw [firstOfEach_of_notMem hseen] at h
      rcases List.mem_cons.mp h with rfl | h
      · exact ⟨List.mem_cons_self, hseen⟩
      · exact (ih h).imp (List.mem_cons_of_mem first) fun h hmem ↦
          h (List.mem_cons_of_mem _ hmem)

theorem firstOfEach_pairwise (seen : List (List Char)) (hosts : List DiscoveredSshHost) :
    (firstOfEach seen hosts).Pairwise fun a b ↦ a.hostAlias ≠ b.hostAlias := by
  induction hosts generalizing seen with
  | nil => exact .nil
  | cons first hosts ih =>
    by_cases hseen : first.hostAlias ∈ seen
    · rw [firstOfEach_of_mem hseen]
      exact ih seen
    · rw [firstOfEach_of_notMem hseen]
      refine .cons (fun host hhost heq ↦ ?_) (ih _)
      exact (mem_of_mem_firstOfEach hhost).2 (heq ▸ List.mem_cons_self)

/-- No alias is lost. -/
theorem exists_mem_firstOfEach {seen : List (List Char)} {hosts : List DiscoveredSshHost}
    {host : DiscoveredSshHost} (h : host ∈ hosts) (hseen : host.hostAlias ∉ seen) :
    ∃ first ∈ firstOfEach seen hosts, first.hostAlias = host.hostAlias := by
  induction hosts generalizing seen with
  | nil => exact absurd h List.not_mem_nil
  | cons first hosts ih =>
    rcases List.mem_cons.mp h with rfl | h
    · rw [firstOfEach_of_notMem hseen]
      exact ⟨host, List.mem_cons_self, rfl⟩
    · by_cases hfirst : first.hostAlias ∈ seen
      · rw [firstOfEach_of_mem hfirst]
        exact ih h hseen
      · rw [firstOfEach_of_notMem hfirst]
        by_cases heq : first.hostAlias = host.hostAlias
        · exact ⟨first, List.mem_cons_self, heq⟩
        · have hnot : host.hostAlias ∉ first.hostAlias :: seen := fun hmem ↦
            (List.mem_cons.mp hmem).elim (fun h ↦ heq h.symm) hseen
          obtain ⟨other, hmem, hother⟩ := ih h hnot
          exact ⟨other, List.mem_cons_of_mem first hmem, hother⟩

/-- Hosts in front with aliases of their own stay. -/
theorem mem_firstOfEach_append {seen : List (List Char)} {front : List DiscoveredSshHost}
    (hnodup : (front.map DiscoveredSshHost.hostAlias).Nodup)
    (hseen : ∀ host ∈ front, host.hostAlias ∉ seen) (back : List DiscoveredSshHost)
    {host : DiscoveredSshHost} (h : host ∈ front) : host ∈ firstOfEach seen (front ++ back) := by
  induction front generalizing seen with
  | nil => exact absurd h List.not_mem_nil
  | cons first front ih =>
    rw [List.map_cons, List.nodup_cons] at hnodup
    rw [List.cons_append, firstOfEach_of_notMem (hseen first List.mem_cons_self)]
    rcases List.mem_cons.mp h with rfl | h
    · exact List.mem_cons_self
    · refine List.mem_cons_of_mem first (ih hnodup.2 (fun other hother hmem ↦ ?_) h)
      rcases List.mem_cons.mp hmem with heq | hmem
      · exact hnodup.1 (heq ▸ List.mem_map_of_mem hother)
      · exact hseen other (List.mem_cons_of_mem first hother) hmem

theorem mem_dedupeHosts {hosts : List DiscoveredSshHost} {host : DiscoveredSshHost} :
    host ∈ dedupeHosts hosts ↔ host ∈ firstOfEach [] hosts := by
  rw [dedupeHosts, List.mem_mergeSort]

/-- The aliases are strictly increasing. -/
theorem dedupeHosts_pairwise (hosts : List DiscoveredSshHost) :
    ((dedupeHosts hosts).map DiscoveredSshHost.hostAlias).Pairwise (· < ·) := by
  have hsorted := @List.pairwise_mergeSort _
    (fun a b : DiscoveredSshHost ↦ decide (a.hostAlias ≤ b.hostAlias))
    (fun a b c hab hbc ↦ by
      rw [decide_eq_true_iff] at hab hbc ⊢
      exact le_trans hab hbc)
    (fun a b ↦ by
      rw [Bool.or_eq_true, decide_eq_true_iff, decide_eq_true_iff]
      exact le_total _ _) (firstOfEach [] hosts)
  have hne : (dedupeHosts hosts).Pairwise fun a b ↦ a.hostAlias ≠ b.hostAlias :=
    (List.mergeSort_perm _ _).symm.pairwise (firstOfEach_pairwise [] hosts) fun h ↦ h.symm
  rw [List.pairwise_map]
  exact hsorted.imp₂ (fun _ _ hle hne ↦ lt_of_le_of_ne (of_decide_eq_true hle) hne) hne

theorem mem_map_dedupeHosts {hosts : List DiscoveredSshHost} {name : List Char} :
    name ∈ (dedupeHosts hosts).map DiscoveredSshHost.hostAlias ↔
      name ∈ hosts.map DiscoveredSshHost.hostAlias := by
  simp only [List.mem_map, mem_dedupeHosts]
  constructor
  · rintro ⟨host, hmem, hname⟩
    exact ⟨host, (mem_of_mem_firstOfEach hmem).1, hname⟩
  · rintro ⟨host, hmem, hname⟩
    obtain ⟨first, hfirst, heq⟩ := exists_mem_firstOfEach hmem List.not_mem_nil
    exact ⟨first, hfirst, heq.trans hname⟩

/-! ## Discovery -/

section Discovery

variable (fs : FileSystem) (home : Option ConfigPath) (config : Option HostsConfig)
  (paths : List ConfigPath)

/-- The file has been read, under this path or another one. -/
def WasRead (reads : List ConfigPath) (file : ConfigPath) : Prop :=
  ∃ path ∈ reads, fs.canonicalize path = fs.canonicalize file

/-- What is discovered and read. No file is read twice, and what is read is what the paths lead to,
along the includes of what is read. The aliases are those of the table and of the lines read, with
the table's own entry where it has one. -/
structure Discovers (out : List DiscoveredSshHost) (reads : List ConfigPath) : Prop where
  once : (reads.map fs.canonicalize).Nodup
  reached : ∀ path ∈ reads, Reached fs home paths path
  roots : ∀ path ∈ paths, ∀ file ∈ filesAt fs path, WasRead fs reads file
  included : ∀ source ∈ reads, ∀ path ∈ includes fs home source, ∀ file ∈ filesAt fs path,
    WasRead fs reads file
  increasing : (out.map DiscoveredSshHost.hostAlias).Pairwise (· < ·)
  table : ∀ p ∈ config.elim [] HostsConfig.hosts, tomlHost p ∈ out
  aliases : ∀ name, name ∈ out.map DiscoveredSshHost.hostAlias ↔
    name ∈ (config.elim [] HostsConfig.hosts).map Prod.fst ∨
      ∃ path ∈ reads, ∃ line ∈ fileLines fs path, name ∈ lineAliases line

variable {fs home paths}

theorem Reached.isFile {path : ConfigPath} (h : Reached fs home paths path) :
    fs.isFile path = true := by
  cases h with
  | root _ hfile => exact isFile_of_mem_filesAt hfile
  | «include» _ _ hfile => exact isFile_of_mem_filesAt hfile

theorem canonicalize_eq_some {path : ConfigPath} (h : fs.isFile path = true) :
    fs.canonicalize path = some (fs.canonical path) := by
  obtain ⟨file, -, heq⟩ := fs.canonicalize_mem path h
  rw [FileSystem.canonical, heq, Option.getD_some]

theorem lineHosts_hostAlias (path : ConfigPath) {line : List Char} {name : List Char} :
    name ∈ (lineHosts path line).map DiscoveredSshHost.hostAlias ↔ name ∈ lineAliases line := by
  have hid : DiscoveredSshHost.hostAlias ∘ openSshHost path = id := rfl
  rw [lineHosts, List.map_map, hid, List.map_id]

/-- What the paths have led to, read off what has been found. -/
theorem Extends.discovers {b : Found}
    (hext : Extends fs home paths
      ⟨[], (config.elim [] HostsConfig.hosts).map tomlHost, []⟩ b)
    (hcovers : ∀ path ∈ paths, Covers fs b path) :
    Discovers fs home config paths (dedupeHosts b.hosts) b.reads := by
  have hmarked : Marked fs b := hext.marked ⟨rfl, .nil⟩
  have hreached : ∀ path ∈ b.reads, Reached fs home paths path := fun path h ↦
    (hext.reached path h).resolve_left List.not_mem_nil
  have hdone : ∀ path ∈ b.reads, Done fs home b path := fun path h ↦
    (hext.done path h).resolve_left List.not_mem_nil
  have hread : ∀ path, Covers fs b path → ∀ file ∈ filesAt fs path, WasRead fs b.reads file := by
    intro path hcover file hfile
    have hmem := hcover file hfile
    rw [hmarked.visited] at hmem
    obtain ⟨source, hsource, heq⟩ := List.mem_map.mp hmem
    refine ⟨source, hsource, ?_⟩
    rw [canonicalize_eq_some (hreached source hsource).isFile,
      canonicalize_eq_some (isFile_of_mem_filesAt hfile), heq]
  have haliases : ((config.elim [] HostsConfig.hosts).map tomlHost).map
      DiscoveredSshHost.hostAlias = (config.elim [] HostsConfig.hosts).map Prod.fst := by
    rw [List.map_map]
    rfl
  refine ⟨?_, hreached, fun path hpath ↦ hread path (hcovers path hpath), ?_,
    dedupeHosts_pairwise b.hosts, fun p hp ↦ ?_, fun name ↦ ?_⟩
  · have hmap : b.reads.map fs.canonicalize = (b.reads.map fs.canonical).map some := by
      rw [List.map_map]
      exact List.map_congr_left fun path h ↦ canonicalize_eq_some (hreached path h).isFile
    rw [hmap, ← hmarked.visited]
    exact hmarked.nodup.map fun _ _ h ↦ Option.some.inj h
  · intro source hsource path hpath
    obtain ⟨line, hline, hmem⟩ := List.mem_flatMap.mp hpath
    exact hread path ((hdone source hsource).includes line hline path hmem)
  · obtain ⟨back, hback⟩ := hext.hosts
    rw [mem_dedupeHosts, ← hback]
    refine mem_firstOfEach_append ?_ (fun _ _ ↦ List.not_mem_nil) back (List.mem_map_of_mem hp)
    rw [haliases]
    cases config with
    | none => exact .nil
    | some config => exact config.nodup
  · rw [mem_map_dedupeHosts, ← haliases]
    constructor
    · intro h
      obtain ⟨host, hhost, rfl⟩ := List.mem_map.mp h
      rcases hext.origin host hhost with h | ⟨path, hpath, line, hline, h⟩
      · exact .inl (List.mem_map_of_mem h)
      · exact .inr ⟨path, hpath, line, hline,
          (lineHosts_hostAlias path).mp (List.mem_map_of_mem h)⟩
    · rintro (h | ⟨path, hpath, line, hline, h⟩)
      · exact (hext.hosts.map _).subset h
      · obtain ⟨host, hhost, rfl⟩ := List.mem_map.mp
          ((lineHosts_hostAlias path).mpr h)
        exact List.mem_map_of_mem ((hdone path hpath).hosts line hline host hhost)

/-- The discovery ends. -/
theorem discover_endsWith : ∃ out reads,
    EndsWith (discoverSshHostsWithConfig fs home config paths) (out, reads) ∧
      Discovers fs home config paths out reads := by
  have hdepth : ∀ path a, depth fs path a ≤ 2 * fs.files.length + 2 := by
    intro path a
    have hle : unvisited fs a ≤ fs.files.length := List.length_filter_le _ _
    rw [depth]
    split_ifs <;> omega
  have hsettles : ∀ path ∈ paths, ∀ a,
      Extends fs home paths ⟨[], (config.elim [] HostsConfig.hosts).map tomlHost, []⟩ a →
      Settles fs home paths (2 * fs.files.length + 2) path a := fun path hpath a _ ↦
    parse_settles _ path a (hdepth path a) fun file hfile ↦ .root hpath hfile
  obtain ⟨b, hb, hext, hcovers⟩ := foldlM_extends
    (fun n found path ↦ parseOpensshConfig fs home n path found)
    (fun path found ↦ Covers fs found path) (fun path a b hab h ↦ h.mono hab.visited) hsettles
  refine ⟨dedupeHosts b.hosts, b.reads, ⟨2 * fs.files.length + 2, fun n hn ↦ ?_⟩,
    hext.discovers config hcovers⟩
  exact congrArg (Option.map fun found : Found ↦ (dedupeHosts found.hosts, found.reads)) (hb n hn)

end Discovery

/-- **SSH host discovery.** It ends, reads each file once and gives the aliases in order, and a line
comes out as it is meant exactly if it is not a host line or a plain one. -/
theorem ssh_host_discovery (fs : FileSystem) (home : Option ConfigPath)
    (config : Option HostsConfig) (paths : List ConfigPath) :
    (∃ out reads, EndsWith (discoverSshHostsWithConfig fs home config paths) (out, reads) ∧
      Discovers fs home config paths out reads) ∧
      ∀ l : ConfigLine, l.ReadsAs ↔ (l.IsHost → l.Plain) :=
  ⟨discover_endsWith config, fun l ↦ l.readsAs_iff⟩

/-- The line `Host = dev`. -/
def hostEqualsDev : ConfigLine where
  indent := []
  keyword := ['H', 'o', 's', 't']
  sep := .equals [' '] [' ']
  args := some ⟨.ofWord ['d', 'e', 'v'] (by decide) (forall_mem_of_all (by decide)), [], by simp⟩
  space := []
  comment := none
  indent_blank := by decide
  keyword_ne := by decide
  keyword_word := forall_mem_of_all (by decide)
  sep_valid := ⟨by decide, by decide⟩
  sep_whole := by simp
  space_blank := by decide

/-- White space before the `=` makes an alias of it. -/
theorem hostEqualsDev_not_readsAs :
    hostEqualsDev.text = ['H', 'o', 's', 't', ' ', '=', ' ', 'd', 'e', 'v'] ∧
      hostEqualsDev.IsHost ∧ lineAliases hostEqualsDev.text = [['='], ['d', 'e', 'v']] ∧
      ¬hostEqualsDev.ReadsAs := by
  have hhost : hostEqualsDev.IsHost := by
    rw [ConfigLine.IsHost]
    decide
  refine ⟨rfl, hhost, by decide, fun h ↦ ?_⟩
  obtain ⟨hafter, -⟩ := (hostEqualsDev.readsAs_iff.mp h hhost).2 [' '] [' '] rfl (by decide)
  exact absurd hafter (by decide)

end Kmux.SshConfig
