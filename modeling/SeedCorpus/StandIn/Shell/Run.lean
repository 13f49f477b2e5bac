/-
  The stand-in shell: running a script.

  `exec` carries out a command and `expand` a piece of a word; each may need the other.  Both take a number of steps; when it
  is used up, the shell has run for too long, as it has when its time is over.
-/
import SeedCorpus.StandIn.Shell.Own
import SeedCorpus.Tool.Run

namespace SeedCorpus.StandIn.Shell

/-! ## Commands and words -/

/-- Whether a word takes the output of a command. -/
def takesOutput (word : Word) : Bool :=
  word.any fun
    | .outputOf .. => true
    | _ => false

/-- A word with the folder of the user in place of a tilde in front and, in values, of one behind a colon. -/
def withHome (s : State) (inValue : Bool) (word : Word) : Word :=
  match word with
  | .text "~" false :: rest =>
    let name := rest.takeWhile fun
      | .text t false => t ≠ "/" && !(inValue && t = ":")
      | _ => false
    let after := rest.drop name.length
    let ends := match after with
      | [] => true
      | .text _ false :: _ => true
      | _ => false
    let home : Option String :=
      if !ends then none
      else if name.isEmpty then s.vars.lookup "HOME"
      else if name.length = 4 && (name.flatMap fun
        | .text t _ => t.toList
        | _ => []) = "root".toList then some "/root"
      else none
    match home with
    | some path => .text path true :: after
    | none => word
  | word => word

/-- A value with the folder of the user in place of tildes. -/
def valueWithHome (s : State) (word : Word) : Word :=
  let parts := word.foldr (fun piece below =>
    match piece, below with
    | .text ":" false, below => [] :: below
    | piece, first :: more => (piece :: first) :: more
    | piece, [] => [[piece]]) [[]]
  [Piece.text ":" false].intercalate (parts.map (withHome s true))

mutual

/-- Carries out a command. -/
def exec : Nat → Command → Act Unit
  | 0, _ => throw .timeUp
  | steps + 1, command =>
    match command with
    | .simple below assignments words redirections => do
      modify fun s => { s with line := s.lines - below + 1 }
      let args ← expandFields steps words
      let values ← assignments.mapM fun (name, word) => do
        let value := joined (← expandWord steps (valueWithHome (← get) word))
        if args.isEmpty then assign name value
        return (name, value)
      let targets ← expandTargets steps redirections
      if (← get).has 'x' then
        let shown := values.map (fun (name, value) => name ++ "=" ++ value) ++ args
        modify (·.print 2 (Utf8.encode ("+ " ++ " ".intercalate shown ++ "\n")))
      match args with
      | [] =>
        if !assignments.any fun a => takesOutput a.2 then setStatus 0
        let _ ← withRedirections targets (pure ())
        mind
      | "exec" :: [] => if !(← redirectAll targets) then throw (.exit 2)
      | name :: args =>
        let before ← get
        modify fun s =>
          { values.foldl (fun s (name, value) => s.assign name value) s with
            exported := values.map (·.1) ++ s.exported }
        let done ← withRedirections targets (invoke steps name args)
        if !done && specialCommands.contains name then throw (.exit 2)
        modify fun s =>
          if specialCommands.contains name then { s with exported := s.exported.drop values.length }
          else
            { values.foldl (fun s (name, _) => s.put name (before.vars.lookup name)) s with
              exported := before.exported }
        mind
    | .pipe stages => do
      execStages steps stages
      mind
    | .not body => do
      if ← succeeds (exec steps body) then setStatus 1 else setStatus 0
    | .and first second => do
      if ← succeeds (exec steps first) then exec steps second
    | .or first second => do
      if !(← succeeds (exec steps first)) then exec steps second
    | .sequence commands => commands.forM (exec steps)
    | .branch condition body alternative => do
      let holds ← succeeds (exec steps condition)
      setStatus 0
      exec steps (if holds then body else alternative)
    | .loop contrary condition body => do
      let last := (← get).status
      if (← succeeds (exec steps condition)) != contrary then
        if ← round (exec steps body) then exec steps (.loop contrary condition body)
      else setStatus last
    | .each name words body => do
      let values ← expandFields steps words
      setStatus 0
      let goesOn ← values.foldlM (fun goesOn value =>
        if goesOn then do
          assign name value
          round (exec steps body)
        else pure false) true
      if !goesOn then setStatus 0
    | .choose word cases => do
      let text := (joined (← expandWord steps (withHome (← get) false word))).toList
      setStatus 0
      let _ ← cases.foldlM (fun found (patterns, body) => do
        if found then return true
        let matching ← patterns.anyM fun pattern => do return fits (patternOf (← expandWord steps pattern)) text
        if matching then exec steps body
        return matching) false
    | .scope body => do
      execScope steps body
      mind
    | .redirected body redirections => do
      let _ ← withRedirections (← expandTargets steps redirections) (exec steps body)
      mind
    | .beside body => beside (execScope steps body)
    | .define name body => modify fun s =>
        { s with functions := (name, body) :: s.functions.filter (·.1 ≠ name), status := 0 }

/-- Carries out a command in a shell of its own, where only signals that do nothing keep their meaning. -/
def execScope : Nat → Command → Act Unit
  | 0, _ => throw .timeUp
  | steps + 1, command => inScope do
    modify fun s => { s with traps := s.traps.filter (·.2.isEmpty) }
    finish steps (exec steps command)

/-- Carries out commands in a row, each in a shell of its own. -/
def execStages : Nat → List Command → Act Unit
  | 0, _ => throw .timeUp
  | steps + 1, stages =>
    match stages with
    | [] => pure ()
    | [last] => execScope steps last
    | first :: rest => do
      let output ← capture (execScope steps first)
      let outer := (← get).streams
      modify (·.begin 0 (.source output))
      execStages steps rest
      modify fun s => { s with streams := outer }

/-- Does something up to the end of the shell, and then what is to be done at the end. -/
def finish : Nat → Act Unit → Act Unit
  | 0, _ => throw .timeUp
  | steps + 1, act => do
    tryCatch act fun
      | .exit n | .done n => setStatus n
      | stop => throw stop
    let s ← get
    match s.traps.lookup 0 with
    | some text =>
      set { s with traps := s.traps.filter (·.1 ≠ 0) }
      runText steps text
      setStatus s.status
    | none => pure ()

/-- Carries out the command of a name. -/
def invoke : Nat → String → List String → Act Unit
  | 0, _, _ => throw .timeUp
  | steps + 1, name, args => do
    match (← get).functions.lookup name with
    | some body =>
      let outer ← get
      modify fun s => { s with args, named := true, hidden := [], loops := 0 }
      tryCatch (exec steps body) fun
        | .done n => setStatus n
        | stop => throw stop
      modify fun s =>
        { s.hidden.foldl (fun s (name, value) => s.put name value) s with
          args := outer.args, named := outer.named, hidden := outer.hidden, loops := outer.loops }
    | none => invokeOwn steps name args

/-- Carries out a command of the shell itself, or runs a program. -/
def invokeOwn : Nat → String → List String → Act Unit
  | 0, _, _ => throw .timeUp
  | steps + 1, name, args => do
    match ownCommand? name args, name, args with
    | some act, _, _ => act
    | none, "exec", command :: args => do
      match (← get).callee command with
      | .missing => complain ("exec: " ++ command ++ ": not found") 127
      | .barred => complain ("exec: " ++ command ++ ": Permission denied") 126
      | .program .. => inScope (runProgram steps command args)
      throw (.exit (← get).status)
    | none, "command", "-v" :: names => names.forM (describe true)
    | none, "command", "-V" :: names => names.forM (describe false)
    | none, "command", "-p" :: command :: args => invokeOwn steps command args
    | none, "command", "--" :: command :: args => invokeOwn steps command args
    | none, "command", command :: args => invokeOwn steps command args
    | none, "command", [] => setStatus 0
    | none, "type", names => names.forM (describe false)
    | none, "eval", words => runText steps (" ".intercalate words)
    | none, ".", [] => fault ".: filename argument required"
    | none, ".", path :: _ => do
      let s ← get
      let paths := if path.toList.contains '/' then [path] else ((s.value "PATH").splitOn ":").map (Path.join · path)
      match paths.find? fun p => (s.scriptAt p).isOk with
      | some path => runText steps (Utf8.decode ((s.scriptAt path).toOption.getD []))
      | none =>
        fault (if path.toList.contains '/' then ".: cannot open " ++ path ++ ": No such file" else ".: " ++ path ++ ": not found")
    | none, "kill", ["-l", signal] =>
      let text := signalName ((Tool.naturalOf? signal).getD 0 % 128)
      modify fun s => { s.print 1 (Utf8.encode (text ++ "\n")) with status := 0 }
    | none, "kill", args =>
      match killing args with
      | .error (text, status) => complain text status
      | .ok (signal, targets) => do
        setStatus 0
        targets.forM fun target => do
          let s ← get
          match s.job? target with
          | some job => if isHarmless signal then pure () else modify (·.endJob job signal)
          | none =>
            if target = ownNumber || target = "0" then
              match (if signal = 9 then none else s.traps.lookup signal) with
              | some text =>
                runText steps text
                setStatus 0
              | none => if isHarmless signal then setStatus 0 else throw (.killed signal)
            else complain "kill: No such process\n" 1
    | none, _, _ => runProgram steps name args

/-- Runs a program, given what it is called. It knows only the variables that are exported. -/
def runProgram : Nat → String → List String → Act Unit
  | 0, _, _ => throw .timeUp
  | steps + 1, called, args => do
    match (← get).callee called with
    | .missing => complain (called ++ ": not found") 127
    | .barred => complain (called ++ ": Permission denied") 126
    | .program _ name => runFound steps called name args

/-- Runs the program of a name. -/
def runFound : Nat → String → String → List String → Act Unit
  | 0, _, _, _ => throw .timeUp
  | steps + 1, called, name, args => do
    match name, args with
    | "env", ["--version"] => setStatus 0
    | "env", args => inScope do
      let bare := args.takeWhile fun word => word = "-i" || word = "-"
      if !bare.isEmpty then modify fun s => { s with exported := [] }
      let args := args.drop bare.length
      let settings := args.takeWhile (·.contains '=')
      forNames name settings fun word value s => { s.put word value with exported := word :: s.exported }
      match args.drop settings.length with
      | command :: args => runOther steps called command args
      | [] => modify fun s =>
        let known := s.vars.filter fun v => s.exported.contains v.1
        let rows := known.map fun (name, value) => name ++ "=" ++ value ++ "\n"
        { s.print 1 (Utf8.encode (String.join rows.reverse)) with status := 0 }
    | name, args =>
      if Tool.isShell name then
        let before ← get
        tryCatch (inScope (runShell steps called args)) fun
          | .killed n => modify fun s =>
              let complaint := (signalText? n).map fun text => Utf8.encode (text ++ "\n")
              (before.outside s (128 + n)).print 2 (complaint.getD [])
          | stop => throw stop
      else
        match Tool.find? name with
        | some tool => useTool called (fun t => (tool t).calledAs name called) args false
        | none => complain (called ++ ": not found") 127

/-- Runs a program for another program, which complains if there is none. -/
def runOther : Nat → String → String → List String → Act Unit
  | 0, _, _, _ => throw .timeUp
  | steps + 1, caller, command, args => do
    let refuse (e : FileError) (status : Nat) : Act Unit := modify fun s =>
      let complaint := caller ++ ": " ++ Tool.quotedAlways command ++ ": " ++ e.reason ++ "\n"
      { s.print 2 (Utf8.encode complaint) with status }
    match (← get).callee command with
    | .program _ name => runFound steps command name args
    | .barred => refuse .denied 126
    | .missing => refuse .notFound 127

/-- Runs the script that the arguments of a shell ask for. -/
def runShell : Nat → String → List String → Act Unit
  | 0, _, _ => throw .timeUp
  | steps + 1, name, args => do
    match scriptOf (← get) name args with
    | .ok script =>
      modify fun s =>
        let s := if script.fromInput then s.advance 0 (s.inputOf 0).length else s
        State.switch { s with
          name := script.name, args := script.args, functions := [], status := 0, fixed := []
          vars := s.vars.filter fun v => s.exported.contains v.1
          named := false, hidden := [], line := 1, traps := s.traps.filter (·.2.isEmpty), loops := 0
          settings := [], asked := false, lastJob := none, optionPlace := 0 } true script.letters
      finish steps (runText steps script.text)
    | .error text =>
      modify fun s => { s.print 2 (Utf8.encode (name ++ ": 0: " ++ text ++ "\n")) with status := 2 }

/-- Carries out the command of a text. -/
def runText : Nat → String → Act Unit
  | 0, _ => throw .timeUp
  | steps + 1, text => do
    let before ← get
    set { before with lines := text.toList.count '\n' }
    runLines steps text.toList
    modify fun s => { s with line := before.line, lines := before.lines }

/-- Carries out the commands of a script, each before the next one is read. -/
def runLines : Nat → List Char → Act Unit
  | 0, _ => throw .timeUp
  | steps + 1, text =>
    match nextCommand text with
    | .ok none => pure ()
    | .ok (some (command, rest)) => do
      exec steps command
      runLines steps rest
    | .error (trouble, rest) => do
      modify fun s => { s with line := s.lines - rest.count '\n' + 1 }
      fault ("Syntax error: " ++ trouble)

/-- The fragments of a word. -/
def expandWord : Nat → Word → Act (List Fragment)
  | 0, _ => throw .timeUp
  | steps + 1, word => do return (← word.mapM (expand steps)).flatten

/-- The fields that words make. -/
def expandFields : Nat → List Word → Act (List String)
  | 0, _ => throw .timeUp
  | steps + 1, words => do
    let s ← get
    let parts ← words.mapM fun word => expandWord steps (withHome s false word)
    let s ← get
    let fields := parts.flatMap (fields s.separators)
    return if s.has 'f' then fields.map Marked.text else fields.flatMap (matchingPaths s.files)

/-- Redirections with their targets as texts. -/
def expandTargets : Nat → List Redirection → Act (List (Nat × Redirect × String))
  | 0, _ => throw .timeUp
  | steps + 1, redirections =>
    redirections.mapM fun (stream, way, word) => do
      return (stream, way, joined (← expandWord steps (withHome (← get) false word)))

/-- The fragments of a piece of a word. -/
def expand : Nat → Piece → Act (List Fragment)
  | 0, _ => throw .timeUp
  | steps + 1, piece => do
    let s ← get
    let demand (name : String) : Act Unit :=
      if s.has 'u' && (s.value? name).isNone && name ≠ "@" && name ≠ "*" then fault (name ++ ": parameter not set")
      else pure ()
    match piece with
    | .text text quoted => return [.solid text quoted]
    | .value name quoted =>
      demand name
      return expandValue s name quoted
    | .length name quoted =>
      demand name
      return fragmentsOf (toString (s.value name).length) quoted
    | .trimmed name atEnd longest pattern quoted =>
      demand name
      let pattern := patternOf (← expandWord steps pattern)
      let value := (s.value name).toList
      let rest := if atEnd then trimEnd longest pattern value else trimFront longest pattern value
      return fragmentsOf (String.ofList rest) quoted
    | .fallback name rule orEmpty word quoted =>
      let isSet := match s.value? name with
        | some v => !(orEmpty && v.isEmpty)
        | none => false
      match rule, isSet with
      | .whenSet, true => return (← expandWord steps word).map (Fragment.within quoted)
      | .whenSet, false => return if quoted then [.solid "" true] else []
      | _, true => return expandValue s name quoted
      | .use, false => return (← expandWord steps word).map (Fragment.within quoted)
      | .assign, false =>
        let text := joined (← expandWord steps word)
        assign name text
        return fragmentsOf text quoted
      | .refuse, false =>
        let text := joined (← expandWord steps word)
        let usual := if orEmpty then "parameter not set or null" else "parameter not set"
        fault (name ++ ": " ++ (if text.isEmpty then usual else text))
        return []
    | .arithmetic expression quoted =>
      let text := joined (← expandWord steps expression)
      match (Arithmetic.Expression.parse text).bind fun e => e.eval s.value [] with
      | .ok (n, set) =>
        set.reverse.forM fun (name, value) => assign name value
        return fragmentsOf (toString n) quoted
      | .error trouble =>
        fault (trouble.message text)
        return []
    | .outputOf command quoted =>
      let output ← capture (execScope steps command)
      return fragmentsOf (outputText output) quoted

end

/-! ## Whole runs -/

/-- How many steps a run may take. -/
def maxSteps : Nat := 1000000

/-- What a program left that did something. The end comes once nothing more can be printed. -/
def outcome (start : State) (act : Act Unit) : SeedCorpus.Tool.Outcome :=
  let awaited : Act Unit := do
    let status ← tryCatch (do act; return SeedCorpus.Tool.Ending.exited (← get).status) fun
      | .exit n | .done n => return .exited n
      | .leave .. => return .exited (← get).status
      | .killed _ => return .killed
      | stop => throw stop
    waitFor ((← get).writers 0 ++ (← get).writers 1)
    if let .exited n := status then setStatus n else throw (.killed 0)
  let (s, ending) : State × SeedCorpus.Tool.Ending := match awaited.run start with
    | .ok _ s => (s, .exited s.status)
    | .error (.killed _) s => (s, .killed)
    | .error _ s => (s, .timedOut)
  { output := s.contentOf 0, errors := s.contentOf 1, ending, files := { s.files with here := start.files.here } }

/-- The folders in which programs are looked for. -/
def programFolders : String := "/usr/local/sbin:/usr/local/bin:/usr/sbin:/usr/bin:/sbin:/bin"

/-- The variables that every program knows. -/
def commonVariables (here : List String) : List (String × String) :=
  [("PATH", programFolders), ("HOME", "/root"), ("PWD", pathOf here)]

/-- The start of a program. -/
def start (files : FileTree) (input : Bytes) (millis : Nat) : State :=
  let vars := commonVariables files.here
  { files, millis, vars, exported := vars.map (·.1), channels := [(0, .record), (1, .record), (2, .source input)] }

/-- Runs a program, given what it is called and its name, with arguments. -/
def run (files : FileTree) (called name : String) (args : List String) (input : Bytes) (millis : Nat) :
    SeedCorpus.Tool.Outcome :=
  outcome (start files input millis)
    (if Tool.isShell name then runShell maxSteps called args else runFound maxSteps called name args)

end SeedCorpus.StandIn.Shell
