/-
  The stand-in shell: commands that it carries out itself.

  `ownCommand?` has those that run no other command.  What these commands say stands behind the name of the shell.
-/
import SeedCorpus.StandIn.Shell.Expansion
import SeedCorpus.StandIn.Shell.Redirection

namespace SeedCorpus.StandIn.Shell

/-! ## Signals -/

/-- The numbers of signals by their names. -/
def signals : List (String × Nat) :=
  [("EXIT", 0), ("HUP", 1), ("INT", 2), ("QUIT", 3), ("ILL", 4), ("TRAP", 5), ("ABRT", 6), ("BUS", 7), ("FPE", 8),
    ("KILL", 9), ("USR1", 10), ("SEGV", 11), ("USR2", 12), ("PIPE", 13), ("ALRM", 14), ("TERM", 15), ("CHLD", 17),
    ("CONT", 18), ("STOP", 19), ("URG", 23), ("WINCH", 28)]

/-- The number of a signal, given by its number or by its name. -/
def signalOf? (text : String) : Option Nat :=
  match Tool.naturalOf? text with
  | some n => if n ≤ 64 then some n else none
  | none => signals.lookup (if text.startsWith "SIG" then String.ofList (text.toList.drop 3) else text)

/-- The name of a signal. -/
def signalName (signal : Nat) : String := ((signals.find? (·.2 = signal)).map (·.1)).getD (toString signal)

/-- Whether a signal does no harm. -/
def isHarmless (signal : Nat) : Bool := [0, 17, 18, 23, 28].contains signal

/-- What a shell says about a command that a signal has ended. -/
def signalText? : Nat → Option String
  | 1 => some "Hangup"
  | 3 => some "Quit"
  | 4 => some "Illegal instruction"
  | 5 => some "Trace/breakpoint trap"
  | 6 => some "Aborted"
  | 7 => some "Bus error"
  | 8 => some "Floating point exception"
  | 9 => some "Killed"
  | 10 => some "User defined signal 1"
  | 11 => some "Segmentation fault"
  | 12 => some "User defined signal 2"
  | 14 => some "Alarm clock"
  | 15 => some "Terminated"
  | _ => none

/-- The signal that the arguments of `kill` send, and the numbers of programs that they send it to. -/
def killing (args : List String) : Except (String × Nat) (Nat × List String) :=
  let (signal, targets) : String × List String := match args with
    | "-s" :: signal :: targets => (signal, targets)
    | first :: targets => if first.startsWith "-" then (String.ofList (first.toList.drop 1), targets) else ("TERM", args)
    | [] => ("TERM", [])
  match signalOf? signal, targets with
  | none, _ => .error ("kill: Illegal option -" ++ String.ofList (signal.toList.take 1), 2)
  | some _, [] =>
    .error ("kill: Usage: kill [-s sigspec | -signum | -sigspec] [pid | job]... or\nkill -l [exitstatus]", 2)
  | some n, targets =>
    match targets.find? fun t => (Tool.naturalOf? t).isNone && !t.startsWith "%" with
    | some word => .error ("kill: Illegal number: " ++ word, 2)
    | none => .ok (n, targets)

/-- The state after a signal has ended a command beside the shell, unless that has ended already. -/
def State.endJob (s : State) (job : Job) (signal : Nat) : State :=
  if s.millis ≤ job.ends then s
  else
    { s with
      jobs := s.jobs.map fun j => if j.number = job.number then { j with ends := s.millis, status := 128 + signal } else j
      record := s.record.filter fun p => p.job ≠ job.number || s.millis ≤ p.millis }

/-- The command beside the shell that a word names: by its number among all programs or, behind a percent sign, by its
place. -/
def State.job? (s : State) (word : String) : Option Job :=
  let known := s.jobs.filter (·.known)
  if word.startsWith "%" then
    match Tool.naturalOf? (word.drop 1).toString with
    | some n => if n = 0 then none else known.reverse[n - 1]?
    | none => known.head?
  else known.find? fun job => jobName job.number = word

/-- Waits for a command beside the shell, and takes over its status. -/
def awaitJob (word : String) : Act Unit := do
  match (← get).job? word with
  | some job =>
    waitFor [job]
    modify fun s =>
      let jobs := s.jobs.map fun j => if j.number = job.number then { j with known := false } else j
      let complaint := if 128 < job.status then (signalText? (job.status - 128)).map (· ++ "\n") else none
      { s.print 2 (Utf8.encode (complaint.getD "")) with jobs, status := job.status }
  | none => if word.startsWith "%" then fault ("wait: No such job: " ++ word) else setStatus 127

/-- Waits for commands beside the shell: those that are named, or all. -/
def await (args : List String) : Act Unit := do
  match args with
  | [] =>
    waitFor ((← get).jobs.filter (·.known))
    modify fun s => { s with jobs := s.jobs.map fun job => { job with known := false }, status := 0 }
  | words => words.forM awaitJob

/-- A text in single quotes. -/
def inQuotes (text : String) : String := "'" ++ "'\\''".intercalate (text.splitOn "'") ++ "'"

/-- Decides what to do when signals come: what a text says, nothing if it is empty, or the usual if it is a dash. -/
def setTrap (args : List String) : Act Unit :=
  match args with
  | [] => modify fun s =>
      let rows := s.traps.map fun (n, text) => "trap -- " ++ inQuotes text ++ " " ++ signalName n ++ "\n"
      { s.print 1 (Utf8.encode (String.join rows)) with status := 0 }
  | first :: rest => do
    let (text, names) : Option String × List String :=
      if rest.isEmpty || (Tool.naturalOf? first).isSome then (none, args)
      else (if first = "-" then none else some first, rest)
    match names.find? fun name => (signalOf? name).isNone with
    | some name =>
      modify fun s => { s.print 2 (Utf8.encode ("trap: " ++ name ++ ": bad trap\n")) with status := 1 }
    | none => modify fun s =>
        let numbers := names.filterMap signalOf?
        let others := s.traps.filter fun t => !numbers.contains t.1
        { s with
          traps := match text with
            | some text => others ++ numbers.map (·, text)
            | none => others
          status := 0 }

/-! ## Reading lines -/

/-- A line in front of a stream, each byte with whether it stands for itself, the rest, and whether the line has an end. A
backslash takes away the meaning of the next byte unless `raw`. -/
def takeLine (raw : Bool) : Bytes → List (UInt8 × Bool) × Bytes × Bool
  | [] => ([], [], false)
  | [b] => if b = Tool.newline then ([], [], true) else ([(b, false)], [], false)
  | b :: next :: rest =>
    if b = Tool.newline then ([], next :: rest, true)
    else if b = 92 && !raw then
      let (line, rest, complete) := takeLine raw rest
      (if next = Tool.newline then line else (next, true) :: line, rest, complete)
    else
      let (line, rest, complete) := takeLine raw (next :: rest)
      ((b, false) :: line, rest, complete)

/-- Whether a byte of a line is a blank that parts words. -/
def isGap (separators : List Char) (item : UInt8 × Bool) : Bool :=
  let c := Char.ofNat item.1.toNat
  !item.2 && isBlank c && separators.contains c

/-- Whether a byte of a line parts words. -/
def isSeparator (separators : List Char) (item : UInt8 × Bool) : Bool :=
  !item.2 && separators.contains (Char.ofNat item.1.toNat)

/-- Shares the words of a line among variables; the last of them takes all that is left. -/
def share (separators : List Char) : List String → List (UInt8 × Bool) → State → State
  | [], _, s => s
  | name :: more, line, s =>
    let gap := isGap separators
    let line := line.dropWhile gap
    let text (part : List (UInt8 × Bool)) : String := Utf8.decode (part.map (·.1))
    if more.isEmpty then s.assign name (text (line.reverse.dropWhile gap).reverse)
    else
      let word := line.takeWhile (!isSeparator separators ·)
      let rest := (line.drop word.length).dropWhile gap
      let rest := match rest with
        | item :: behind => if isSeparator separators item then behind else rest
        | [] => []
      share separators more rest (s.assign name (text word))

/-- Whether a word can be the name of a variable. -/
def isName (word : String) : Bool :=
  match word.toList with
  | [] => false
  | c :: _ => isNameStart c && word.toList.all isNameChar

/-- Reads a line into variables. -/
def readLine (args : List String) : Act Unit := do
  let names := args.filter fun word => !word.startsWith "-"
  if names.isEmpty then complain "read: arg count" 2
  else if let some name := names.find? (!isName ·) then complain ("read: " ++ name ++ ": bad variable name") 2
  else
    let s ← get
    if let some name := names.find? s.fixed.contains then fault ("read: " ++ name ++ ": is read only")
    let input := s.inputOf 0
    let (line, rest, complete) := takeLine (args.contains "-r") input
    set { (share s.separators names line s).advance 0 (input.length - rest.length) with
      status := if complete then 0 else 1 }

/-! ## Options of scripts -/

/-- Reads the next option among words, given the letters that may stand there, those that take a value with a colon behind
them. A colon in front of all letters keeps the shell from complaining. The variable of the given name is set to the letter,
to a question mark if it is none, or to a colon if its value is missing. -/
def readOption (letters : List Char) (name : String) (words : List String) : Act Unit := do
  let s ← get
  let next := max 1 ((Tool.naturalOf? (s.value "OPTIND")).getD 1)
  let quiet := letters.head? = some ':'
  let inWord := if next = 1 then [] else ((words[next - 2]?).getD "").toList.drop s.optionPlace
  let (left, next) : Option (List Char) × Nat :=
    if !inWord.isEmpty && s.optionPlace ≠ 0 then (some inWord, next)
    else
      match words[next - 1]?.map String.toList with
      | some ['-', '-'] => (none, next + 1)
      | some ('-' :: c :: more) => (some (c :: more), next + 1)
      | _ => (none, next)
  let finish (result : String) (value : Option String) (next place status : Nat) : Act Unit := do
    modify fun s => { (s.put "OPTARG" value).assign "OPTIND" (toString next) with optionPlace := place, status }
    if isName name then assign name result else fault ("getopts: " ++ name ++ ": bad variable name")
  let refuse (letter result : String) (text : String) (place : Nat) : Act Unit := do
    if quiet then finish result (some letter) next place 0
    else
      modify fun s => s.print 2 (Utf8.encode (text ++ "\n"))
      finish "?" none next place 0
  match left with
  | none => finish "?" (s.vars.lookup "OPTARG") next 0 1
  | some [] => finish "?" none next 0 1
  | some (c :: more) =>
    let letter := String.singleton c
    let place := if more.isEmpty then 0 else ((words[next - 2]?).getD "").length - more.length
    match letters.dropWhile (· ≠ c) with
    | [] => refuse letter "?" ("Illegal option -" ++ letter) place
    | _ :: ':' :: _ =>
      if c = ':' then refuse letter "?" ("Illegal option -" ++ letter) place
      else if !more.isEmpty then finish letter (some (String.ofList more)) next 0 0
      else
        match words[next - 1]? with
        | some value => finish letter (some value) (next + 1) 0 0
        | none => refuse letter ":" ("No arg for -" ++ letter ++ " option") 0
    | _ => if c = ':' then refuse letter "?" ("Illegal option -" ++ letter) place else finish letter (some "") next place 0

/-! ## Settings -/

/-- The state with settings of the shell switched on or off, each given by its letter. -/
def State.switch (s : State) (on : Bool) (letters : List Char) : State :=
  let others := s.settings.filter (!letters.contains ·)
  { s with settings := if on then letters ++ others else others }

/-- The letter of a setting that has a name. -/
def settingNamed (name : String) : List Char :=
  match name with
  | "errexit" => ['e']
  | "noglob" => ['f']
  | "noexec" => ['n']
  | "nounset" => ['u']
  | "xtrace" => ['x']
  | "verbose" => ['v']
  | "noclobber" => ['C']
  | "allexport" => ['a']
  | _ => []

/-- The state after `set`, whose arguments are settings and then new arguments of the shell. -/
def State.setAll : List String → State → State
  | [], s => s
  | ["-"], s => s
  | "--" :: args, s => { s with args }
  | "-o" :: name :: rest, s => State.setAll rest (s.switch true (settingNamed name))
  | "+o" :: name :: rest, s => State.setAll rest (s.switch false (settingNamed name))
  | word :: rest, s =>
    match word.toList with
    | '-' :: letters => State.setAll rest (s.switch true letters)
    | '+' :: letters => State.setAll rest (s.switch false letters)
    | _ => { s with args := word :: rest }

/-- Does something with each name among the arguments of a command and with the value behind an equals sign, if there is
one. -/
def forNames (command : String) (args : List String) (use : String → Option String → State → State) : Act Unit := do
  let split (word : String) : String × Option String :=
    match word.splitOn "=" with
    | name :: first :: more => (name, some ("=".intercalate (first :: more)))
    | _ => (word, none)
  let words := args.filter fun word => !word.startsWith "-"
  match words.find? fun word => !isName (split word).1 with
  | some word => fault (command ++ ": " ++ (split word).1 ++ ": bad variable name")
  | none =>
    let fixed := (← get).fixed
    if let some word := words.find? fun word =>
        ((split word).2.isSome || command = "unset") && fixed.contains (split word).1 then
      fault (command ++ ": " ++ (split word).1 ++ ": is read only")
    modify fun s => { words.foldl (fun s word => use (split word).1 (split word).2 s) s with status := 0 }

/-- Does something with the number in the first argument of a command, or another one. -/
def withCount (command : String) (args : List String) (default : Nat) (use : Nat → Act Unit) : Act Unit :=
  match args with
  | [] => use default
  | word :: _ =>
    match Tool.naturalOf? word with
    | some n => use n
    | none => fault (command ++ ": Illegal number: " ++ word)

/-- Leaves loops, or goes on with the next round of the outermost of them. -/
def leaveLoops (count : Nat) (again : Bool) : Act Unit := do
  let loops := (← get).loops
  setStatus 0
  if loops > 0 then throw (.leave (min count loops) again)

/-! ## Folders -/

/-- The path of the folder that names lead to. -/
def pathOf (parts : List String) : String := "/" ++ "/".intercalate parts

/-- Goes to another folder. -/
def changeFolder (args : List String) : Act Unit := do
  let s ← get
  let args := args.dropWhile fun word => ["-L", "-P", "--"].contains word
  let path := match args with
    | [] => s.value "HOME"
    | "-" :: _ => s.value "OLDPWD"
    | path :: _ => path
  if path.isEmpty then setStatus 0
  else
    match s.files.findFolder path, s.files.locate path with
    | .ok _, .ok place =>
      let shown := if args.head? = some "-" then pathOf place.parts ++ "\n" else ""
      let before := s.value "PWD"
      let s := (s.assign "OLDPWD" before).assign "PWD" (pathOf place.parts)
      set { s.print 1 (Utf8.encode shown) with files := { s.files with here := place.parts }, status := 0 }
    | _, _ => complain ("cd: can't cd to " ++ path) 2

/-! ## All commands -/

/-- A list of variables as commands that set them. -/
def settingRows (s : State) (command : String) (names : List String) : String :=
  String.join ((names.eraseDups.mergeSort (fun a b => decide (a ≤ b))).map fun name =>
    match s.vars.lookup name with
    | some value => command ++ name ++ "=" ++ inQuotes value ++ "\n"
    | none => if command.isEmpty then "" else command ++ name ++ "\n")

/-- Prints a text and succeeds. -/
def say (text : String) : Act Unit := modify fun s => { s.print 1 (Utf8.encode text) with status := 0 }

/-- Carries out a command of the shell itself that needs no other command, if the name is one. -/
def ownCommand? (name : String) (args : List String) : Option (Act Unit) :=
  let bare := args.filter fun word => word ≠ "-p"
  match name with
  | "umask" => some (say (if args.isEmpty then "0022\n" else if args = ["-S"] then "u=rwx,g=rx,o=rx\n" else ""))
  | ":" | "true" | "times" | "hash" | "alias" | "unalias" | "jobs" => some (setStatus 0)
  | "ulimit" => some (say (if args.isEmpty then "unlimited\n" else ""))
  | "false" => some (setStatus 1)
  | "fg" | "bg" => some (complain (name ++ ": No current job") 2)
  | "wait" => some (await args)
  | "exit" => some (do withCount name args (← get).status fun n => throw (.exit (n % 256)))
  | "return" => some (do withCount name args (← get).status fun n => throw (.done (n % 256)))
  | "break" => some (withCount name args 1 fun n => leaveLoops n false)
  | "continue" => some (withCount name args 1 fun n => leaveLoops n true)
  | "shift" => some (withCount name args 1 fun n => do
      if (← get).args.length < n then fault "shift: can't shift that many"
      modify fun s => { s with args := s.args.drop n, status := 0 })
  | "set" => some (do
      if args.isEmpty then
        let s ← get
        say (settingRows s "" (s.vars.map (·.1)))
      else modify fun s => { State.setAll args s with status := 0 })
  | "unset" => some (forNames name args fun word _ s =>
      if args.contains "-f" then { s with functions := s.functions.filter (·.1 ≠ word) } else s.put word none)
  | "export" => some (do
      if bare.isEmpty then
        let s ← get
        say (settingRows s "export " s.exported)
      else forNames name args fun word value s =>
        { (if value.isSome then s.put word value else s) with exported := word :: s.exported })
  | "readonly" => some (do
      if bare.isEmpty then
        let s ← get
        say (settingRows s "readonly " s.fixed)
      else forNames name args fun word value s =>
        { (if value.isSome then s.put word value else s) with fixed := word :: s.fixed })
  | "local" => some (do
      if !(← get).named then fault "local: not in a function"
      forNames name args fun word value s =>
        let s := { s with hidden := (word, s.vars.lookup word) :: s.hidden }
        if value.isSome then s.put word value else s)
  | "cd" | "chdir" => some (changeFolder args)
  | "pwd" => some (do say (pathOf (← get).files.here ++ "\n"))
  | "trap" => some (setTrap args)
  | "read" => some (readLine args)
  | "getopts" => some (match args with
      | letters :: target :: words => do
        let s ← get
        readOption letters.toList target (if words.isEmpty then s.args else words)
      | _ => fault "getopts: Usage: getopts optstring var [arg...]")
  | "echo" => some (useTool name Tool.shellEcho args true)
  | "printf" => some (useTool name (Tool.printf .shell) args true)
  | "test" => some (useTool name (Tool.test Tool.Doubt.shellMessage) args true)
  | "[" => some (useTool name (Tool.bracket Tool.Doubt.shellMessage) args true)
  | _ => none

/-- The commands of the shell whose failures end the shell. -/
def specialCommands : List String :=
  [":", ".", "break", "continue", "eval", "exec", "exit", "export", "local", "readonly", "return", "set", "shift", "times",
    "trap", "unset"]

/-- Whether the shell carries out a command itself. -/
def isOwn (name : String) : Bool :=
  (ownCommand? name []).isSome || specialCommands.contains name || ["command", "kill", "type"].contains name

/-! ## Programs -/

/-- What a path or a name that is looked up leads to. -/
inductive Callee where
  /-- The program of a name, in the file of a path. -/
  | program (path name : String)
  /-- Something that is no program. -/
  | barred
  /-- Nothing. -/
  | missing
deriving DecidableEq, Repr, Inhabited

/-- What a path leads to. -/
def calleeAt (t : FileTree) (path : String) : Callee :=
  match t.find path with
  | .ok (.file content) =>
    match Tool.programIn? content with
    | some name => .program path name
    | none => .barred
  | .ok (.folder _) => .barred
  | .error _ => .missing

/-- The first program among paths, or that one is barred. -/
def firstCallee (t : FileTree) : List String → Callee
  | [] => .missing
  | path :: rest =>
    match calleeAt t path, firstCallee t rest with
    | .program path name, _ => .program path name
    | .barred, .missing => if t.findFolder path |>.isOk then .missing else .barred
    | _, found => found

/-- What a name leads to, in the folders of a list; a name with a slash is a path. -/
def callee (t : FileTree) (folders name : String) : Callee :=
  if name.toList.contains '/' then calleeAt t name
  else if name.isEmpty then .missing
  else firstCallee t ((folders.splitOn ":").map (Path.join · name))

/-- What a name leads to that a shell looks up. -/
def State.callee (s : State) (name : String) : Callee := Shell.callee s.files (s.value "PATH") name

/-- Tells where a command comes from, in short if `briefly`. -/
def describe (briefly : Bool) (name : String) : Act Unit := do
  let s ← get
  let tell (short long : String) (status : Nat) : Act Unit :=
    let line := if briefly then short else name ++ long
    modify fun s => { s.print 1 (Utf8.encode (if line.isEmpty then "" else line ++ "\n")) with status }
  if keywords.contains name then tell name " is a shell keyword" 0
  else if (s.functions.lookup name).isSome then tell name " is a shell function" 0
  else if specialCommands.contains name then tell name " is a special shell builtin" 0
  else if isOwn name then tell name " is a shell builtin" 0
  else
    match s.callee name with
    | .program path _ => tell path (" is " ++ path) 0
    | _ => tell "" ": not found" 127

/-! ## Options of the shell -/

/-- A script and what it is run with. -/
structure Script where
  /-- The text. -/
  text : String
  /-- The name of the shell. -/
  name : String
  /-- The arguments. -/
  args : List String := []
  /-- The letters of the settings that are switched on. -/
  letters : List Char := []
  /-- Whether the text was read from the input. -/
  fromInput : Bool := false
deriving DecidableEq, Repr, Inhabited

/-- Whether a word gives options to a shell. -/
def isShellOption (word : String) : Bool :=
  match word.toList with
  | '-' :: letters => !letters.isEmpty && letters.all "acefnsuvxC".toList.contains
  | _ => false

/-- The bytes of the script in a file. -/
def State.scriptAt (s : State) (path : String) : Except FileError Bytes :=
  if s.files.device? path = some .input then .ok (s.inputOf 0) else (s.files.read path).map ByteArray.toList

/-- The script that the arguments of a shell ask for: in an argument, in a file, or on the input. The shell goes by the given
name unless the arguments give another one. -/
def scriptOf (s : State) (name : String) (args : List String) : Except String Script :=
  let letters := ((args.takeWhile isShellOption).map fun word => word.toList.drop 1).flatten
  let operands := match args.dropWhile isShellOption with
    | "--" :: operands | "-" :: operands => operands
    | operands => operands
  let input (args : List String) : Script := 
    { text := Utf8.decode (s.inputOf 0), name, args, letters, fromInput := true }
  if letters.contains 'c' then
    match operands with
    | [] => .error "-c requires an argument"
    | [text] => .ok { text, name, letters }
    | text :: name :: args => .ok { text, name, args, letters }
  else if letters.contains 's' then .ok (input operands)
  else
    match operands with
    | [] => .ok (input [])
    | path :: args =>
      if path.startsWith "--" && operands = args.dropWhile isShellOption then .error "Illegal option --"
      else if path.startsWith "-" then .error ("Illegal option -" ++ String.ofList ((path.toList.drop 1).take 1))
      else
        match s.scriptAt path with
        | .ok bytes => .ok { text := Utf8.decode bytes, name := path, args, letters }
        | .error _ => .error ("cannot open " ++ path ++ ": No such file")

end SeedCorpus.StandIn.Shell
