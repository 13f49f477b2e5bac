/-
  The stand-in shell: where the streams of a command lead.

  A redirection changes the streams of one command; `withRedirections` leads them back.  A file is emptied when a stream
  begins to write it, before the command does anything.
-/
import SeedCorpus.StandIn.Shell.State

namespace SeedCorpus.StandIn.Shell

/-- What a shell says of a file that cannot be opened. `missing` stands for a path that leads nowhere. -/
def openingTrouble (missing : String) (e : FileError) : String :=
  match e with
  | .notFound | .notFolder => missing
  | e => e.reason

/-- Leads a stream where a device stands for, if it is one of the streams of the shell, or to the device. -/
def leadToDevice (stream : Nat) (kind : Device) : Act Unit :=
  modify fun s =>
    match kind with
    | .input => s.lead stream (s.streams.lookup 0)
    | .output => s.lead stream (s.streams.lookup 1)
    | .errors => s.lead stream (s.streams.lookup 2)
    | kind => s.begin stream (.device kind)

/-- How a file is opened for writing. -/
inductive Opening where
  /-- It is emptied. -/
  | emptied
  /-- What it holds stays, and more is written behind it. -/
  | behind
  /-- What it holds stays, and is written over. -/
  | over
deriving DecidableEq, Repr

/-- Leads a stream to a file, which is made if need be, and tells whether that was possible. A file that is there is not
emptied if `sparing`. -/
def leadToFile (stream : Nat) (path : String) (way : Opening) (sparing : Bool) : Act Bool := do
  let s ← get
  match s.files.device? path with
  | some kind =>
    leadToDevice stream kind
    return true
  | none =>
    let old := match s.files.find path with
      | .ok (.file content) => some content
      | _ => none
    let content := if way = .emptied then ByteArray.empty else old.getD .empty
    let opened : Except FileError (FileTree × List String) := do
      if sparing && way = .emptied && old.isSome then throw .taken
      let files ← s.files.write path content
      return (files, (← files.locate path).parts)
    match opened with
    | .error e =>
      complain ("cannot create " ++ path ++ ": " ++ openingTrouble "Directory nonexistent" e) 2
      return false
    | .ok (files, parts) =>
      set ({ s with files }.begin stream (.file parts 0 (way = Opening.behind)))
      return true

/-- Redirects a stream, and tells whether that was possible. -/
def redirect (stream : Nat) (way : Redirect) (target : String) : Act Bool := do
  let s ← get
  match way with
  | .here =>
    set (s.begin stream (.source (Utf8.encode target)))
    return true
  | .input =>
    match s.files.device? target, (do s.files.entryOf (← s.files.locate target) : Except FileError Entry) with
    | some kind, _ =>
      leadToDevice stream kind
      return true
    | none, .ok _ =>
      set (s.begin stream (.file ((s.files.locate target).toOption.elim [] (·.parts)) 0 false))
      return true
    | none, .error e =>
      complain ("cannot open " ++ target ++ ": " ++ openingTrouble "No such file" e) 2
      return false
  | .output => leadToFile stream target .emptied (s.has 'C')
  | .clobber => leadToFile stream target .emptied false
  | .append => leadToFile stream target .behind false
  | .both => leadToFile stream target .over false
  | .same =>
    match Tool.naturalOf? target with
    | some other =>
      match s.streams.lookup other with
      | some channel =>
        set (s.lead stream (some channel))
        return true
      | none =>
        complain (target ++ ": Bad file descriptor") 2
        return false
    | none =>
      if target = "-" then
        set (s.lead stream none)
        return true
      else fault "Bad fd number"; return false

/-- Redirects streams, one after the other, up to the first that cannot be. -/
def redirectAll : List (Nat × Redirect × String) → Act Bool
  | [] => return true
  | (stream, way, target) :: rest => do
    if ← redirect stream way target then redirectAll rest else return false

/-- Does something with streams redirected, leads them back, and tells whether it was possible to redirect them. -/
def withRedirections (redirections : List (Nat × Redirect × String)) (act : Act Unit) : Act Bool := do
  if redirections.isEmpty then
    act
    return true
  let before ← get
  let back : Act Unit := modify fun s => { s with streams := before.streams }
  if ← redirectAll redirections then
    tryCatch act fun stop => do
      back
      throw stop
    back
    return true
  else
    back
    return false

end SeedCorpus.StandIn.Shell
