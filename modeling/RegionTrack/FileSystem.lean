import RegionTrack.FileRead

/-!
# The file system a run sees

The tool reads its data and metadata by path. A run sees a working directory that holds a table
of files (name and text) and nothing else, `workingDepth` directories below the root of a
system. What the system holds is known only in part: its standard directories, a few devices and
text files, the programs' binary data, and the running process's entry in the process table
(`/proc/self`), which links to the working directory (`cwd`), the root (`root`), the program
(`exe`) and the empty standard input (`fd/0`). The directories above the working directory
exist, but what they hold is not known, so every name looked up in one is missing.

A path is walked one component at a time, the way the kernel resolves it: an empty component and
`.` stay where they are, `..` goes to the parent (the root is its own parent, and `..` after a
link goes to the parent of where the link led), and a name is looked up in the directory
reached. A symbolic link is followed by walking its target in place of its name; a link of the
process table leads straight to its place. One path follows at most `linkMax` links. Going on
from a file fails with "not a directory"; a name longer than `nameMax` bytes is refused with
"file name too long", except in the process table and the kernel's object tree, which only find
no such entry; a path longer than `pathMax` bytes is refused whole. A path that ends at a
directory opens, but reading it fails.
-/

namespace RegionTrack

/-- The longest name a directory entry may have, in bytes. -/
def nameMax : Nat := 255

/-- The longest path the system accepts, in bytes. -/
def pathMax : Nat := 4095

/-- The most symbolic links that following one path may go through. -/
def linkMax : Nat := 40

/-- How many directories the working directory lies below the root. -/
def workingDepth : Nat := 2

/-- Where a walk along the components of a path stands. -/
inductive Place where
  /-- A known directory of the system, by its components below the root; `[]` is the root. -/
  | system (components : List String)
  /-- A directory of the running process's entry in the process table, by its components below
  the entry; `thread` marks the entry of its main thread, which lies in the process's `task`. -/
  | process (thread : Bool) (components : List String)
  /-- The working directory, which holds the files. -/
  | working
  /-- The directory `levels` levels above the working directory and below the root. -/
  | above (levels : Nat)
  /-- A file, and what reading it gives. -/
  | file (read : FileRead)
  /-- The walk failed. -/
  | failed (cause : OsError)
deriving Repr, DecidableEq

/-- What a name in a directory stands for. -/
inductive Entry where
  /-- A directory or a file. -/
  | node (place : Place)
  /-- A symbolic link to a path, walked from the root when it is absolute and from the link's
  directory otherwise. -/
  | link (target : String)
  /-- A link of the process table, which leads straight to a place. -/
  | jump (place : Place)
deriving Repr, DecidableEq

/-- The binary data of a program: the ELF magic number and header start, then data that is not
UTF-8, for which the byte 0xFF (never part of UTF-8) stands. -/
def programBytes : List UInt8 := [0x7F, 0x45, 0x4C, 0x46, 0x02, 0x01, 0x01, 0x00, 0xFF]

/-- A text file of the system, held by its first words, which is as far as a JSON reader gets
into it before failing. -/
def textFile (start : String) : Place := .file (.ofText start)

/-- The standard input: empty. -/
def standardInput : Place := .file (.content [])

/-- The directories of the system below the root, each by its components. -/
def systemDirectories : List (List String) :=
  [["bin"], ["boot"], ["dev"], ["dev", "mqueue"], ["dev", "pts"], ["dev", "shm"], ["etc"],
    ["home"], ["lib"], ["media"], ["mnt"], ["opt"], ["proc"], ["proc", "1"], ["proc", "sys"],
    ["root"], ["run"], ["sbin"], ["srv"], ["sys"], ["tmp"], ["usr"], ["usr", "bin"],
    ["usr", "lib"], ["usr", "local"], ["usr", "sbin"], ["usr", "share"], ["var"]]

/-- The known entries of the system, each by its components below the root. The zero devices
never end; a reader of tracker data stops at their first byte, a zero. -/
def systemEntries : List (List String × Entry) :=
  systemDirectories.map (fun d => (d, .node (.system d))) ++
    [(["dev", "null"], .node (.file (.content []))),
      (["dev", "zero"], .node (.file (.content [0]))),
      (["dev", "full"], .node (.file (.content [0]))),
      (["dev", "stdin"], .link "/proc/self/fd/0"),
      (["dev", "fd"], .link "/proc/self/fd"),
      (["proc", "self"], .jump (.process false [])),
      (["proc", "thread-self"], .jump (.process true [])),
      (["proc", "version"], .node (textFile "Linux version")),
      (["proc", "cpuinfo"], .node (textFile "processor")),
      (["proc", "meminfo"], .node (textFile "MemTotal:")),
      (["etc", "passwd"], .node (textFile "root:x:0:0:root:/root:")),
      (["bin", "sh"], .node (.file (.content programBytes))),
      (["usr", "bin", "sh"], .node (.file (.content programBytes))),
      (["usr", "bin", "env"], .node (.file (.content programBytes)))]

/-- The entries of the running process's entry in the process table (or its main thread's), by
their components below it. -/
def processEntry (thread : Bool) : List String → Option Entry
  | ["cwd"] => some (.jump .working)
  | ["root"] => some (.jump (.system []))
  | ["exe"] => some (.jump (.file (.content programBytes)))
  | ["mem"] => some (.node (.file (.unreadable .inputOutput)))
  | ["status"] => some (.node (textFile "Name:"))
  | ["fd"] => some (.node (.process thread ["fd"]))
  | ["fd", "0"] => some (.jump standardInput)
  | ["task"] => if thread then none else some (.node (.process false ["task"]))
  | _ => none

/-- The most components a symbolic link's target has. -/
def linkTargetLength : Nat :=
  systemEntries.foldl (fun m e => match e.2 with
    | .link target => max m (target.splitOn "/").length
    | _ => m) 0

namespace Place

/-- The place `..` leads to from a directory. -/
def parent : Place → Place
  | .system components => .system components.dropLast
  | .process false [] => .system ["proc"]
  | .process true [] => .process false ["task"]
  | .process thread components => .process thread components.dropLast
  | .working => if workingDepth ≤ 1 then .system [] else .above 1
  | .above levels => if workingDepth ≤ levels + 1 then .system [] else .above (levels + 1)
  | p => p

/-- Whether a name that is too long is refused as such here; the process table and the kernel's
object tree only find no such entry. -/
def checksNameLength : Place → Bool
  | .system ("proc" :: _) | .system ("sys" :: _) | .process _ _ => false
  | _ => true

/-- The refusal of a name that is not here. -/
def missing (p : Place) (name : String) : OsError :=
  if p.checksNameLength && name.utf8ByteSize > nameMax then .nameTooLong else .notFound

/-- What the name `name` stands for in a directory, when the working directory holds `files`. -/
def child (files : List (String × String)) (name : String) (p : Place) : Except OsError Entry :=
  let found := match p with
    | .system components => systemEntries.lookup (components ++ [name])
    | .process thread components => processEntry thread (components ++ [name])
    | .working => (files.lookup name).map fun text => .node (.file (.ofText text))
    | _ => none
  match found with
  | some e => .ok e
  | none => .error (p.missing name)

end Place

/-- Walks the components `cs` from `p`, `links` links having been followed; `fuel` bounds the
steps. -/
def walk (files : List (String × String)) : Nat → Nat → Place → List String → Place
  | _, _, p, [] => p
  | 0, _, _, _ :: _ => .failed .tooManyLinks
  | fuel + 1, links, p, c :: rest =>
    match p with
    | .failed e => .failed e
    | .file _ => .failed .notADirectory
    | _ =>
      if c = "" || c = "." then walk files fuel links p rest
      else if c = ".." then walk files fuel links p.parent rest
      else
        match p.child files c with
        | .error e => .failed e
        | .ok (.node q) => walk files fuel links q rest
        | .ok (.jump q) =>
          if links < linkMax then walk files fuel (links + 1) q rest else .failed .tooManyLinks
        | .ok (.link target) =>
          if links < linkMax then
            walk files fuel (links + 1) (if target.startsWith "/" then .system [] else p)
              (target.splitOn "/" ++ rest)
          else .failed .tooManyLinks

/-- Reads `path` in a run whose working directory holds `files`. An empty path names nothing and
a path longer than `pathMax` bytes is refused whole; any other path is walked component by
component, an absolute one from the root and a relative one from the working directory. Each
step takes one component, and each of at most `linkMax` links adds at most `linkTargetLength`
components, so the fuel given is never the reason a walk stops. -/
def readIn (files : List (String × String)) (path : String) : FileRead :=
  if path.isEmpty then .unopenable .notFound
  else if path.utf8ByteSize > pathMax then .unopenable .nameTooLong
  else
    let start : Place := if path.startsWith "/" then .system [] else .working
    let cs := path.splitOn "/"
    match walk files (cs.length + linkMax * linkTargetLength + 1) 0 start cs with
    | .file r => r
    | .failed e => .unopenable e
    | _ => .unreadable .isADirectory

end RegionTrack
