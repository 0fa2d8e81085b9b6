import LayerCache.Shell.Finding.Form
import LayerCache.Shell.Finding.Reader
import LayerCache.Shell.Program.Start

/-! Going through folders and looking at every entry. -/
namespace LayerCache.Finding

open Program

/-- Paths that wait for a command that takes many, and whether the folder is left out. -/
structure Pending where
  paths : List (Nat × String × String) := []
  pruned : Bool := false

/-- Searching ends early by an error. -/
abbrev Search := ExceptT Unit (StateT Pending Work)

/-- Writes to the output, or behind what a file holds. -/
def append (file : Option String) (text : List Char) : Work Unit :=
  match file with
  | none => print text
  | some name => do
    if (streamOf? name).isSome then discard (saveFile name text)
    else match ← readFile name with
      | .ok before => discard (saveFile name (before ++ text))
      | .error _ => pure ()

/-- Starts a command, in a folder if one is given; tells whether it ended well. -/
def call (launch : Launch) (p : Process) (folder : Option String) (words : List String) :
    Work Bool := do
  let o ← get
  let here := o.disk.here
  let disk := match folder.bind fun name => (o.disk.look true (path name)).toOption with
    | some (place, _) => { o.disk with here := place }
    | none => o.disk
  let name := words.headD ""
  match orShell launch { p with name, args := words.drop 1, input := o.input, disk } with
  | .error fault =>
    write errors ("find: " ++ quoted name ++ ": " ++ fault.reason ++ "\n").toList
    return false
  | .ok effects =>
    takeOver { effects with ending := o.ending, disk := { effects.disk with here } }
    return effects.ending.status = 0

def withPath (path word : String) : String := word.replace "\x7b\x7d" path

/-- The path that a command is given, and the folder it is started in. -/
def placed (v : Visit) (inFolder : Bool) : Option String × String :=
  if inFolder then (some v.folder, if v.path = "/" then "/" else "./" ++ v.name)
  else (none, v.path)

def remove (p : Process) (v : Visit) : Work Bool := do
  if v.path = "." then return true
  let d := (← get).disk
  if v.entry.isFolder && !(d.below v.place).isEmpty then
    complain p ("cannot delete " ++ quoted v.path ++ ": " ++ Fault.notEmpty.reason)
    return false
  modify fun e => { e with disk := e.disk.drop v.place }
  return true

def act (launch : Launch) (p : Process) (depthFirst : Bool) (v : Visit) : Action → Search Bool
  | .print file ending => do
    (append file (v.path.toList ++ [ending]) : Work Unit)
    return true
  | .form file form => do
    let d := (← (get : Work Effects)).disk
    (append file (written d v (form.length + 1) form) : Work Unit)
    return true
  | .list file => do
    let d := (← (get : Work Effects)).disk
    (append file (longLine d v) : Work Unit)
    return true
  | .command words inFolder asks => do
    let (folder, name) := placed v inFolder
    if asks then
      let question := "< " ++ words.headD "" ++ " ... " ++ v.path ++ " > ?"
      (write errors (question ++ " ").toList : Work Unit)
      let text := (← (get : Work Effects)).input
      let line := text.takeWhile (· != '\n')
      (modify fun o => { o with input := text.drop (line.length + 1) } : Work Unit)
      if line.head? != some 'y' && line.head? != some 'Y' then return false
    (call launch p folder (words.map (withPath name)) : Work Bool)
  | .batch index _ inFolder => do
    let (folder, name) := placed v inFolder
    modifyThe Pending fun s => { s with paths := (index, folder.getD "", name) :: s.paths }
    return true
  | .delete => (remove p v : Work Bool)
  | .prune => do
    if !depthFirst then modifyThe Pending ({ · with pruned := true })
    return true
  | .quit => throw ()

def eval (launch : Launch) (p : Process) (depthFirst : Bool) (v : Visit) :
    Expression → Search Bool
  | .test t => do
    let d := (← (get : Work Effects)).disk
    return t.holds d v
  | .action a => act launch p depthFirst v a
  | .not e => do
    let answer ← eval launch p depthFirst v e
    return !answer
  | .both a b => do
    let answer ← eval launch p depthFirst v a
    if answer then eval launch p depthFirst v b else return false
  | .either a b => do
    let answer ← eval launch p depthFirst v a
    if answer then return true else eval launch p depthFirst v b
  | .sequence a b => do
    discard (eval launch p depthFirst v a)
    eval launch p depthFirst v b

/-- Entries in a folder; links are followed if they are to be and lead somewhere. -/
def visitsIn (d : Disk) (s : Setup) (v : Visit) : List Visit :=
  (childrenOf d v.place).filterMap fun name =>
    let inner := within v.path name
    let follows := s.follows = .always
    let found := match d.look follows (path inner) with
      | .ok found => some found
      | .error _ => (d.look false (path inner)).toOption
    found.map fun (place, entry) => ⟨v.start, inner, v.depth + 1, place, entry, follows⟩

def say (p : Process) (text : String) : Search Unit := (complain p text : Work Unit)

/-- Looks at an entry and at all below it; `above` holds the folders on the way. -/
def walk (launch : Launch) (p : Process) (s : Setup) (e : Expression) :
    Nat → List Place → Visit → Search Unit
  | 0, _, _ => return
  | fuel + 1, above, v => do
    let looks := s.least ≤ v.depth
    let look : Search Unit := do
      if looks then discard (eval launch p s.depthFirst v e)
    modifyThe Pending ({ · with pruned := false })
    if !s.depthFirst then look
    let pruned := (← getThe Pending).pruned
    let d := (← (get : Work Effects)).disk
    let deep := s.most.all (v.depth < ·)
    if v.entry.isFolder && deep && !pruned then
      if above.contains v.place then
        say p ("File system loop detected; " ++ quoted v.path ++
          " is part of the same file system loop as " ++ quoted v.start ++ ".")
      else match d.entryAt v.place with
        | some .folder => (visitsIn d s v).forM (walk launch p s e fuel (v.place :: above))
        | _ => say p (quoted v.path ++ ": " ++ Fault.notFound.reason)
    if s.depthFirst then look

def start (launch : Launch) (p : Process) (s : Setup) (e : Expression) (name : String) :
    Search Unit := do
  let d := (← (get : Work Effects)).disk
  let follows := s.follows != .never
  let found := match d.look follows (path name) with
    | .error .notFound => d.look false (path name)
    | found => found
  match found with
  | .error fault => say p (quoted name ++ ": " ++ fault.reason)
  | .ok (place, entry) =>
    walk launch p s e (d.entries.pairs.length * 2 + 2) [] ⟨name, name, 0, place, entry, follows⟩

/-- Starts the commands that take many paths, one after another, folder by folder. -/
def flush (launch : Launch) (p : Process) (e : Expression) (paths : List (Nat × String × String)) :
    Work Unit :=
  e.batches.forM fun (index, words) => do
    let own := paths.filterMap fun (i, folder, name) =>
      if i = index then some (folder, name) else none
    (own.map Prod.fst).eraseDups.forM fun folder => do
      let names := own.filterMap fun (f, name) => if f = folder then some name else none
      let ok ← call launch p (if folder = "" then none else some folder) (words ++ names)
      if !ok then finish 1

end LayerCache.Finding

namespace LayerCache.Program

open LayerCache.Finding

def find (launch : Launch) (p : Process) : Work Unit := do
  let (setup, rest) := takeOptions {} p.args
  let paths := rest.takeWhile (!beginsExpression ·)
  let words := rest.drop paths.length
  let (outcome, setup) ← (tokens (words.length + 1) words).run.run setup
  match outcome.bind expression with
  | .error flaw => complain p flaw
  | .ok e =>
    let search := (if paths.isEmpty then ["."] else paths).forM (start launch p setup e)
    let (_, pending) ← search.run.run {}
    flush launch p e pending.paths.reverse

end LayerCache.Program
