import Dockboard.Text.Blank

set_option autoImplicit false

/-! # The files of a host

A socket is a file, and a path leads to it part by part. Whatever a path goes through must be a
directory. Of the files of a host those are known here that every host of the usual layout has.
-/

namespace Dockboard.Engine

/-- The files of a host, each given by the parts of the path from the root to it. -/
structure Files where
  directories : List (List String)
  others : List (List String)
  /-- Where a path starts that does not start at the root. -/
  working : List String
  deriving Repr, Inhabited

namespace Files

/-- How many bytes a path has at most. -/
def maxPath : Nat := 4095

/-- Whether a path with these parts leads to a file from the directory `here`, whose own parts are
given in reverse. The root is its own parent. -/
def leads (files : Files) (here : List String) : List String → Bool
  | [] => true
  | part :: rest =>
      if part = "" || part = "." then files.leads here rest
      else if part = ".." then files.leads here.tail rest
      else if files.directories.contains (part :: here).reverse then
        files.leads (part :: here) rest
      else rest.isEmpty && files.others.contains (part :: here).reverse

/-- Whether there is a file at `path`. -/
def has (files : Files) (path : String) : Bool :=
  let parts := (Text.splitOn '/' path.toList).map String.ofList
  let start := if path.toList.head? = some '/' then [] else files.working.reverse
  !path.isEmpty && path.utf8ByteSize ≤ maxPath && files.leads start parts

/-- The files with these names in one directory. -/
def within (directory : List String) (names : List String) : List (List String) :=
  names.map fun name => directory ++ [name]

/-- The files that every host of the usual layout has. -/
def usual : Files where
  directories :=
    within [] ["bin", "boot", "dev", "etc", "home", "lib", "media", "mnt", "opt", "proc", "root",
      "run", "sbin", "srv", "sys", "tmp", "usr", "var"] ++
    within ["dev"] ["fd", "mqueue", "pts", "shm"] ++
    within ["proc"] ["self", "sys"] ++
    within ["sys"] ["class", "dev", "devices", "fs", "kernel"] ++
    within ["usr"] ["bin", "lib", "local", "sbin", "share"] ++
    within ["usr", "local"] ["bin", "lib", "sbin", "share"] ++
    within ["var"] ["cache", "lib", "lock", "log", "run", "spool", "tmp"]
  others :=
    within ["dev"] ["full", "null", "ptmx", "random", "stderr", "stdin", "stdout", "tty", "urandom",
      "zero"] ++
    within ["etc"] ["group", "hostname", "hosts", "passwd", "resolv.conf"] ++
    within ["proc"] ["cpuinfo", "meminfo", "mounts", "stat", "uptime", "version"] ++
    within ["proc", "self"] ["cmdline", "environ", "exe", "maps", "stat", "status"] ++
    [["bin", "sh"], ["usr", "bin", "env"], ["usr", "bin", "sh"]]
  working := ["root"]

end Files

end Dockboard.Engine
