import LayerCache.Shell.Builtin

/-! Running scripts. -/
namespace LayerCache.Shell

/-- A loop goes round no more often than this. -/
def mostRounds : Nat := 1000000

/-- One round of a loop; tells whether another may follow. -/
def inLoop (work : Act Unit) : Act Bool := do
  modify fun st => { st with loops := st.loops + 1 }
  work
  let st ← get
  let st := { st with loops := st.loops - 1 }
  match st.jump with
  | some (.outOf n) =>
    set { st with jump := if n ≤ 1 then none else some (.outOf (n - 1)) }
    return false
  | some (.toNext n) =>
    set { st with jump := if n ≤ 1 then none else some (.toNext (n - 1)) }
    return n ≤ 1
  | other =>
    set st
    return other.isNone

/-- Rounds of a body as long as a test succeeds, or as long as it fails. The status is that of the
last body. -/
def goRound (test body : Act Unit) (whileFails : Bool) : Nat → Nat → Act Unit
  | 0, _ => return
  | rounds + 1, last => do
    if ← inLoop (testing test) then
      if ((← get).status = 0) = whileFails then finish last
      else if ← inLoop body then goRound test body whileFails rounds (← get).status

/-- Goes through a list as long as rounds may follow. -/
def goThrough (work : String → Act Bool) : List String → Act Unit
  | [] => return
  | x :: xs => do if ← work x then goThrough work xs

/-- Sets variables in turn, each of them already known to the next, and gives what they were set
to. -/
def Engine.assign (e : Engine) (exported : Bool) (sets : List (String × Word)) :
    Act (List (String × String)) :=
  sets.filterMapM fun (name, w) => do
    if ← hasJumped then return none
    let value ← expandValue e.capture w
    if ← hasJumped then return none
    setVariable name value exported
    return some (name, value)

/-- Does something and puts variables back to what they were before some change. -/
def restoring (names : List String) (change : Act Unit) (work : Act Unit) : Act Unit := do
  let before := (← get).vars
  change
  if !(← hasJumped) then work
  modify fun st => names.foldl (fun st name => st.hide name (before.find? name)) st

def Engine.call (e : Engine) (body : Script) (args : List String) : Act Unit := do
  let outer ← get
  set { outer with
    arguments := args
    nextLetter := (1, none)
    calls := outer.calls + 1
    loops := 0
    hidden := [] :: outer.hidden }
  e.again body
  modify fun st =>
    let st := (st.hidden.headD []).foldl (fun st (name, v) => st.hide name v) st
    { st with
      arguments := outer.arguments
      nextLetter := outer.nextLetter
      calls := outer.calls
      loops := outer.loops
      hidden := outer.hidden
      jump := if st.jump = some .fromFunction then none else st.jump }

/-- Runs a program in the place of the script. -/
def Engine.become (e : Engine) (name : String) (args : List String) : Act Unit := do
  let st ← get
  match Program.orShell e.launch (st.process name args) with
  | .ok o =>
    set { st.takeDisk o.disk with traps := .empty }
    o.writes.reverse.forM fun (stream, text) => write stream text
    modify (·.setInput o.input)
    finish o.ending.status
    jump (match o.ending with
      | .killed n => .killed n
      | .code _ => .exit)
  | .error fault =>
    let missing := fault = .notFound || fault = .notFolder
    complain (name ++ ": " ++ if missing then "not found" else fault.reason)
      (if missing then 127 else 126)
    jump .exit

/-- A command that is no function: the shell's own, or a program. Only special commands fail for
all of the script. -/
def Engine.plain (e : Engine) (name : String) (args : List String) : Act Unit :=
  match e.builtin? name args with
  | some work =>
    let work := doing (some name) do
      modify fun st => { st with lost := false }
      work
      if (← get).lost then
        let status := (← get).status
        complain (name ++ ": I/O error") (status ||| 1)
    if Reader.specialNames.contains name || name = "local" then work else containing work
  | none => e.external name args

/-- A command that is no function, or what such a command is. -/
def Engine.bypass (e : Engine) (args : List String) : Act Unit :=
  withSwitches "pvV" args fun s => match s.operands with
    | [] => finish 0
    | name :: args => do
      let before := (← get).tracked
      if s.has 'p' then modify fun st => { st with tracked := [] }
      if s.has 'v' || s.has 'V' then describe name (!s.has 'V')
      else doing none (containing (e.plain name args))
      if s.has 'p' then modify fun st => { st with tracked := before }

/-- A command by its name. -/
def Engine.perform (e : Engine) (name : String) (args : List String) : Act Unit := do
  match (← get).functions.find? name with
  | some body => e.call body args
  | none => match name, args with
    | "command", args => containing (doing (some "command") (e.bypass args))
    | "exec", "--" :: name :: args | "exec", name :: args =>
      doing (some "exec") (e.become name args)
    | _, _ => e.plain name args

/-- What traces begin with. -/
def Engine.traceLead (e : Engine) : Act String := do
  let text := (((← get).vars.find? "PS4").bind Variable.value).getD ""
  if text.toList.any fun c => c = '$' || c = '\x60' || c = '\\' then
    let fuel := Reader.fuelFor text.toList
    match (Reader.pieces fuel .document 0 []).run { rest := text.toList } with
    | .ok (w, _) => expandText e.capture w
    | .error _ => return text
  else return text

/-- Shows what is about to be done, where the option for it is set, on what the stream of errors was
connected to. -/
def Engine.trace (e : Engine) (errors : Option Handle) (sets : List (String × String))
    (args : List String) : Act Unit := do
  let st ← get
  if st.has 'x' then
    setOption false 'x'
    let lead ← e.traceLead
    modify fun st => { st with handles := errors.elim (st.handles.erase 2) (st.handles.insert 2) }
    write 2 (lead ++ Text.join " " (sets.map (fun (n, v) => n ++ "=" ++ v) ++ args) ++ "\n").toList
    modify fun now => { now with handles := st.handles, options := st.options }

/-- Commands whose arguments may be assignments, which are not cut into fields. -/
def assigners : List String := ["alias", "export", "local", "readonly"]

/-- Whether arguments begin with a command of those. -/
def State.assigns (st : State) (args : List String) : Bool :=
  (args.dropWhile (· = "command")).head?.any fun name =>
    assigners.contains name && !st.functions.contains name

/-- The arguments that words stand for, behind those there are already. -/
def Engine.arguments (e : Engine) : List Word → List String → Act (List String)
  | [], done => return done
  | w :: rest, done => do
    match if (← get).assigns done then Word.assignment? w else none with
    | some (name, value) =>
      e.arguments rest (done ++ [name ++ "=" ++ (← expandValue e.capture value)])
    | none => e.arguments rest (done ++ (← expand e.capture [w]))

/-- A command with its words and redirections. A failed redirection of a special command ends the
script. -/
def Engine.command (e : Engine) (sets : List (String × Word)) (words : List Word)
    (redirects : List Redirect) : Act Unit := do
  modify fun st => { st with answered := none }
  let args ← e.arguments words []
  if ← hasJumped then return
  let errors := (← get).handles.find? 2
  let assigning (exported : Bool) : Act Unit := do
    let values ← e.assign exported sets
    if !(← hasJumped) then e.trace errors values args
  match args with
  | [] =>
    let good ← redirecting e.capture redirects do
      assigning false
      if !(← hasJumped) then finish ((← get).answered.getD 0)
    if !good then finish 2
  | "exec" :: [] =>
    if ← connectAll e.capture redirects then finish 0
    else if !(← hasJumped) then jump .exit
  | name :: args =>
    let special := Reader.specialNames.contains name && !(← get).functions.contains name
    let good ← redirecting e.capture redirects do
      if special then
        assigning false
        if !(← hasJumped) then e.perform name args
      else restoring (sets.map Prod.fst) (assigning true) (e.perform name args)
    if !good then
      finish 2
      if special && !(← hasJumped) then jump .exit

/-- Remembers the places of commands in a pipe, where plain names tell them. -/
def noteCommands : Script → Act Unit
  | .piped left right => do
    noteCommands left
    noteCommands right
  | .command _ _ (w :: _) _ => do
    let name := String.ofList (w.filterMap fun
      | .plain c => some c
      | _ => none)
    let isPlain := w.all fun piece => piece matches .plain _
    if isPlain && Word.isName name && !(← get).functions.contains name &&
        !builtinNames.contains name then Tracked.note name
  | _ => pure ()

/-- Runs a script. Fuel bounds how deep scripts and calls of functions stand in each other; once
something makes the script jump, nothing more is done. -/
def run (launch : Launch) : Nat → Script → Act Unit
  | 0, _ => return
  | fuel + 1, s => do
    let st ← get
    if st.jump.isSome || st.has 'n' then return
    let again := run launch fuel
    let e : Engine := ⟨launch, again⟩
    let atLine (line : Nat) : Act Unit := modify fun st => { st with line }
    match s with
    | .command line sets words redirects =>
      atLine line
      e.command sets words redirects
      checkFailure
    | .redirected line s redirects =>
      atLine line
      if !(← redirecting e.capture redirects (again s)) then finish 2
      checkFailure
    | .sequence parts => parts.forM again
    | .both first second =>
      testing (again first)
      if (← get).status = 0 then again second
    | .either first second =>
      testing (again first)
      if (← get).status != 0 then again second
    | .negated s =>
      testing (again s)
      if !(← hasJumped) then modify fun st => { st with status := if st.status = 0 then 1 else 0 }
    | .piped left right =>
      noteCommands left
      noteCommands right
      let status := (← get).status
      let text ← catching (e.apart (again left))
      if !(← hasJumped) then
        let before ← get
        connectInput 0 text
        finish status
        e.apart (again right)
        modify fun st =>
          { st with handles := before.handles, inputs := st.inputs.take before.inputs.length }
        checkFailure
    | .background s =>
      let before ← get
      connectInput 0 []
      e.apart (again s)
      modify fun st => { st with
        handles := before.handles
        inputs := st.inputs.take before.inputs.length
        behind := st.status :: st.behind
        status := 0 }
    | .subshell line s =>
      atLine line
      e.apart (again s)
      checkFailure
    | .choice test yes no =>
      testing (again test)
      if !(← hasJumped) then
        if (← get).status = 0 then again yes
        else if no matches .sequence [] then finish 0
        else again no
    | .loop whileFails test body =>
      goRound (again test) (again body) whileFails mostRounds 0
    | .each line name words body =>
      atLine line
      let args ← expand e.capture words
      if !(← hasJumped) then
        if args.isEmpty then finish 0
        goThrough (fun value => inLoop do
          setVariable name value
          again body) args
    | .select line w cases =>
      atLine line
      let text ← expandName e.capture w
      if !(← hasJumped) then
        match ← cases.findM? fun (patterns, _) => patterns.anyM fun p => do
            return Field.fits (← expandPattern e.capture p) text.toList with
        | some (_, body) =>
          if body matches .sequence [] then finish 0
          again body
        | none => finish 0
    | .function name body =>
      Tracked.forget name
      modify fun st => { st with functions := st.functions.insert name body, status := 0 }

end LayerCache.Shell
