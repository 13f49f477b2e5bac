/-
  The stand-in shell: what it knows while it runs.

  A stream is a number that leads to a channel, and a channel to bytes that are left to read, to a file, to a device, or to a
  record of what was printed.  Capturing output and writing a file both mean sending a stream to a fresh channel.  Commands
  that run beside the shell start when they are called, so that their pieces of the record may be later than its own.
-/
import SeedCorpus.StandIn.Shell.Syntax
import SeedCorpus.StandIn.Tool.Catalogue

namespace SeedCorpus.StandIn.Shell

/-- Why a command does not come to its end. -/
inductive Stop where
  /-- The shell ends with a status. -/
  | exit (status : Nat)
  /-- A named command ends with a status. -/
  | done (status : Nat)
  /-- Loops are left, or the outermost of them goes on with its next round. -/
  | leave (loops : Nat) (again : Bool)
  /-- A signal ends the shell. -/
  | killed (signal : Nat)
  /-- The time is over. -/
  | timeUp
deriving DecidableEq, Repr, Inhabited

/-- What a stream leads to. -/
inductive Channel where
  /-- Bytes that are left to read. -/
  | source (left : Bytes)
  /-- The file that names lead to, and how many of its bytes have been read or written. New bytes go to its end if
  `behind`. -/
  | file (parts : List String) (place : Nat) (behind : Bool)
  /-- A device. -/
  | device (kind : Device)
  /-- The record. -/
  | record
deriving DecidableEq, Repr, Inhabited

/-- A piece of what was printed. -/
structure Print where
  /-- The channel. -/
  channel : Nat
  /-- The thousandths of a second that were left. -/
  millis : Nat
  /-- The number of the command beside the shell that printed it, or zero. -/
  job : Nat
  /-- What was printed. -/
  bytes : Bytes
deriving DecidableEq, Repr, Inhabited

/-- A command that runs beside the shell. -/
structure Job where
  /-- Its number. -/
  number : Nat
  /-- The status that it ends with. -/
  status : Nat
  /-- The thousandths of a second that are left when it ends, or zero if it does not end in time. -/
  ends : Nat
  /-- The channels that it may print to. -/
  channels : List Nat
  /-- Whether the shell may wait for it. -/
  known : Bool := true
deriving DecidableEq, Repr, Inhabited

/-- What a shell knows. -/
structure State where
  /-- The values of variables. -/
  vars : List (String × String) := []
  /-- The commands that have names. -/
  functions : List (String × Command) := []
  /-- The name of the shell. -/
  name : String := "sh"
  /-- The number of the line that is under way. -/
  line : Nat := 1
  /-- The number of newlines in the script. -/
  lines : Nat := 0
  /-- The arguments. -/
  args : List String := []
  /-- The status of the last command. -/
  status : Nat := 0
  /-- The variables that programs get to know. -/
  exported : List String := []
  /-- The variables that keep their values. -/
  fixed : List String := []
  /-- Whether a named command is under way. -/
  named : Bool := false
  /-- The values that variables have outside of the named command that is under way. -/
  hidden : List (String × Option String) := []
  /-- What to do when a signal comes or, behind the number zero, when the shell ends. -/
  traps : List (Nat × String) := []
  /-- The number of loops that are under way. -/
  loops : Nat := 0
  /-- The letters of the settings that are switched on. -/
  settings : List Char := []
  /-- Whether the status of a command is asked for, so that it may fail. -/
  asked : Bool := false
  /-- How far `getopts` has come in the word that it reads. -/
  optionPlace : Nat := 1
  /-- The channels that streams lead to. Other streams lead nowhere. -/
  streams : List (Nat × Nat) := [(0, 2), (1, 0), (2, 1)]
  /-- The channels by their numbers. -/
  channels : List (Nat × Channel) := [(0, .record), (1, .record)]
  /-- The number of channels. -/
  count : Nat := 3
  /-- All output, the last piece first. -/
  record : List Print := []
  /-- The number of the command beside the shell that is under way, or zero. -/
  job : Nat := 0
  /-- The commands beside the shell, the last one first. -/
  jobs : List Job := []
  /-- The number of the last command beside the shell. -/
  lastJob : Option Nat := none
  /-- All files. -/
  files : FileTree
  /-- The thousandths of a second that are left. -/
  millis : Nat
deriving Inhabited

/-- Something a shell does. -/
abbrev Act (α : Type) := EStateM Stop State α

/-- The number that stands for the shell among all programs. -/
def ownNumber : String := "1000"

/-- The number that stands for a command beside the shell among all programs. -/
def jobName (number : Nat) : String := toString (1000 + number)

/-- The letters of settings. -/
def settingLetters : List Char := "efInsvxCabu".toList

namespace State

/-- Whether a setting is switched on. -/
def has (s : State) (letter : Char) : Bool := s.settings.contains letter

/-- What was printed to a channel, in the order of time. -/
def contentOf (s : State) (channel : Nat) : Bytes :=
  let pieces := (s.record.filter (·.channel = channel)).reverse
  ((pieces.mergeSort fun a b => decide (b.millis ≤ a.millis)).map (·.bytes)).flatten

/-- The bytes of the file that names lead to. -/
def fileAt (s : State) (parts : List String) : Option ByteArray :=
  match s.files.root.entryAt parts with
  | .ok (.file content) => some content
  | _ => none

/-- The channel that a stream leads to. -/
def channel? (s : State) (stream : Nat) : Option Channel := do
  s.channels.lookup (← s.streams.lookup stream)

/-- The bytes that can be read from a stream. -/
def inputOf (s : State) (stream : Nat) : Bytes :=
  match s.channel? stream with
  | some (.source left) => left
  | some (.file parts place _) => (((s.fileAt parts).getD .empty).toList).drop place
  | some (.device .zeros) | some (.device .full) => List.replicate Tool.manyZeros 0
  | _ => []

/-- Where in a file a stream has come to, if it leads to one. -/
def spot? (s : State) (stream : Nat) : Option Tool.Spot :=
  match s.channel? stream with
  | some (.file parts place behind) => some { parts, place := if behind then ((s.fileAt parts).getD .empty).size else place }
  | _ => none

/-- The state with another channel behind a number. -/
def setChannel (s : State) (number : Nat) (c : Channel) : State :=
  { s with channels := (number, c) :: s.channels.filter (·.1 ≠ number) }

/-- The state after bytes were read from a stream. -/
def advance (s : State) (stream count : Nat) : State :=
  match s.streams.lookup stream, s.channel? stream with
  | some number, some (.source left) => s.setChannel number (.source (left.drop count))
  | some number, some (.file parts place behind) => s.setChannel number (.file parts (place + count) behind)
  | _, _ => s

/-- The bytes of a file after others were written at a place. -/
def overwrite (content : ByteArray) (place : Nat) (bytes : Bytes) : ByteArray :=
  if place = content.size then content ++ ⟨bytes.toArray⟩ else
  let gap : Bytes := List.replicate (place - content.size) 0
  ⟨((content.extract 0 place).toList ++ gap ++ bytes ++ (content.extract (place + bytes.length) content.size).toList).toArray⟩

/-- The state with a file changed, if it is still there. -/
def rewrite (s : State) (parts : List String) (change : ByteArray → ByteArray) : State :=
  match s.fileAt parts, parts.getLast? with
  | some content, some name => { s with files := s.files.put parts.dropLast name (.file (change content)) }
  | _, _ => s

/-- The state with more output of a stream. -/
def print (s : State) (stream : Nat) (bytes : Bytes) : State :=
  if bytes.isEmpty then s
  else
    match s.streams.lookup stream, s.channel? stream with
    | some number, some .record =>
      { s with record := { channel := number, millis := s.millis, job := s.job, bytes } :: s.record }
    | some number, some (.file parts place behind) =>
      let start := if behind then ((s.fileAt parts).getD .empty).size else place
      (s.rewrite parts (overwrite · start bytes)).setChannel number (.file parts (start + bytes.length) behind)
    | _, _ => s

/-- Why nothing can be printed to a stream, if that is so. -/
def whyNotPrinted? (s : State) (stream : Nat) : Option String :=
  match s.channel? stream with
  | none | some (.source _) => some "Bad file descriptor"
  | some (.device .full) => some FileError.noSpace.reason
  | _ => none

/-- The state with a stream that leads to a channel, or nowhere. -/
def lead (s : State) (stream : Nat) (channel : Option Nat) : State :=
  let others := s.streams.filter (·.1 ≠ stream)
  { s with streams := match channel with | some n => (stream, n) :: others | none => others }

/-- The state with a stream that leads to a fresh channel. -/
def begin (s : State) (stream : Nat) (c : Channel) : State :=
  { (s.lead stream (some s.count)).setChannel s.count c with count := s.count + 1 }

/-- The value of a parameter, if it is set. -/
def value? (s : State) (name : String) : Option String :=
  match name with
  | "?" => some (toString s.status)
  | "#" => some (toString s.args.length)
  | "@" | "*" => if s.args.isEmpty then none else some (" ".intercalate s.args)
  | "$" => some ownNumber
  | "!" => some ((s.lastJob.map jobName).getD "")
  | "-" => some (String.ofList (settingLetters.filter s.has))
  | "0" => some s.name
  | name =>
    match Tool.naturalOf? name with
    | some n => s.args[n - 1]?
    | none => s.vars.lookup name

/-- The value of a parameter; nothing if it is not set. -/
def value (s : State) (name : String) : String := (s.value? name).getD ""

/-- The state with a variable set, or not set. -/
def put (s : State) (name : String) (value : Option String) : State :=
  let others := s.vars.filter (·.1 ≠ name)
  { s with vars := match value with | some v => (name, v) :: others | none => others }

/-- The state with a variable set. -/
def assign (s : State) (name value : String) : State := s.put name (some value)

/-- The characters that part words. -/
def separators (s : State) : List Char := ((s.vars.lookup "IFS").getD " \t\n").toList

end State

/-! ## Acts -/

/-- Sets the status. -/
def setStatus (status : Nat) : Act Unit := modify fun s => { s with status }

/-- What stands in front of a complaint of a shell: its name and the number of the line. -/
def State.label (s : State) : String := s.name ++ ": " ++ toString s.line ++ ": "

/-- Prints a complaint of the shell. -/
def complain (text : String) (status : Nat) : Act Unit :=
  modify fun s => { s.print 2 (Utf8.encode (s.label ++ text ++ "\n")) with status }

/-- Complains about the use of a command of the shell, and ends the shell. -/
def fault (text : String) : Act Unit := do
  complain text 2
  throw (.exit 2)

/-- Waits. -/
def pass (millis : Nat) : Act Unit := do
  if (← get).millis ≤ millis ∧ millis > 0 then throw .timeUp
  modify fun s => { s with millis := s.millis - millis }

/-- Waits for commands beside the shell. -/
def waitFor (jobs : List Job) : Act Unit :=
  jobs.forM fun job => do
    if job.ends = 0 then throw .timeUp
    modify fun s => { s with millis := min s.millis job.ends }

/-- Sets a variable; one that keeps its value ends the shell. -/
def assign (name value : String) : Act Unit := do
  if (← get).fixed.contains name then fault (name ++ ": is read only")
  modify fun s =>
    let s := s.assign name value
    if s.has 'a' then { s with exported := name :: s.exported } else s

/-- Ends a shell that is strict after a failure. -/
def mind : Act Unit := do
  let s ← get
  if s.has 'e' && !s.asked && s.status ≠ 0 then throw (.exit s.status)

/-- Does something that may fail, and tells whether it succeeds. -/
def succeeds (act : Act Unit) : Act Bool := do
  let before := (← get).asked
  modify fun s => { s with asked := true }
  act
  modifyGet fun s => (decide (s.status = 0), { s with asked := before })

/-- The commands beside the shell that may print to a channel. -/
def State.writers (s : State) (channel : Nat) : List Job := s.jobs.filter (·.channels.contains channel)

/-- Does something with a stream that leads to a fresh record, and takes what went there once nothing more can. -/
def capture (act : Act Unit) : Act Bytes := do
  let before ← get
  let channel := before.count
  set (before.begin 1 .record)
  act
  waitFor ((← get).writers channel)
  modifyGet fun s =>
    (s.contentOf channel, { s with streams := before.streams, record := s.record.filter (·.channel ≠ channel) })

/-- The state outside of a shell of its own: variables, streams and the folder that paths start from are as they were before. -/
def State.outside (before s : State) (status : Nat) : State :=
  let isOld (job : Job) : Bool := before.jobs.any (·.number = job.number)
  { before with
    channels := s.channels, count := s.count, record := s.record, millis := s.millis, status
    files := { s.files with here := before.files.here }
    jobs := s.jobs.map fun job =>
      if isOld job then { job with known := before.jobs.any fun j => j.number = job.number && j.known }
      else { job with known := false } }

/-- Does something in a shell of its own: variables, streams and the end of the shell do not matter outside. -/
def inScope (act : Act Unit) : Act Unit := do
  let before ← get
  modify fun s => { s with jobs := s.jobs.map fun job => { job with known := false } }
  let status ← tryCatch (do act; return (← get).status) fun
    | .exit n | .done n => pure n
    | .leave .. => return (← get).status
    | stop => throw stop
  modify fun s => before.outside s status

/-- Does something beside the shell, which goes on at once. -/
def beside (act : Act Unit) : Act Unit := do
  let before ← get
  let number := before.count
  set { before.begin 0 (.device .empty) with job := number }
  let inTime ← tryCatch (do inScope act; return true) fun
    | .timeUp => return false
    | stop => throw stop
  modify fun s =>
    let job : Job := {
      number, status := s.status, ends := if inTime then s.millis else 0
      channels := (before.streams.filter (·.1 ≠ 0)).map (·.2) }
    let s := before.outside s 0
    { s with jobs := job :: s.jobs, lastJob := some number, millis := before.millis }

/-- Does the round of a loop, and tells whether the loop goes on. -/
def round (act : Act Unit) : Act Bool := do
  let loops := (← get).loops
  modify fun s => { s with loops := loops + 1 }
  let goesOn ← tryCatch (do act; return true) fun
    | .leave count again => do
      modify fun s => { s with loops }
      if count ≤ 1 then pure again else throw (.leave (count - 1) again)
    | stop => throw stop
  modify fun s => { s with loops }
  return goesOn

/-- The status and the complaint of a tool that has something to print and cannot. -/
def unprinted (name reason : String) (own : Bool) : Nat × String :=
  if own then (1, name ++ ": " ++ name ++ ": I/O error
")
  else
    match name, decide (reason = FileError.noSpace.reason) with
    | "sed", _ => (4, "sed: couldn't flush stdout: " ++ reason ++ "
")
    | "grep", _ => (2, "grep: write error: " ++ reason ++ "
")
    | "sort", true => (2, "sort: fflush failed: 'standard output': " ++ reason ++ "
sort: write error
")
    | "sort", false => (2, "sort: write failed: 'standard output': " ++ reason ++ "
")
    | "cat", false => (1, "cat: standard output: " ++ reason ++ "
")
    | name, _ => (1, name ++ ": write error: " ++ reason ++ "
")

/-- Runs a tool of a name. Its complaints are those of the shell if it is one of the commands of the shell itself. -/
def useTool (name : String) (tool : Tool) (args : List String) (own : Bool) : Act Unit := do
  let s ← get
  let input := s.inputOf 0
  let f := tool { args, input, files := s.files, source := s.spot? 0, target := s.spot? 1 }
  let (status, complaint) : Nat × String := match s.whyNotPrinted? 1 with
    | some reason => if f.output.isEmpty then (f.status, "") else unprinted name reason own
    | none => (f.status, "")
  let errors := f.errors ++ Utf8.encode complaint
  let errors := if own then (Tool.lines errors).flatMap (Utf8.encode s.label ++ ·) else errors
  modify fun s =>
    let s := if f.consumed then s.advance 0 input.length else s
    { ((({ s with files := f.changed.getD s.files }).print 1 f.output).print 2 errors) with status }
  pass f.millis

end SeedCorpus.StandIn.Shell
