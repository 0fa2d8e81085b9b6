import LayerCache.Compiler.External
import LayerCache.Shell.Run

/-! Starting programs, the shell among them, and programs as compilers.

A compiler is named by a command, and a project may name any. The theory takes what commands do as a
parameter, `Programs`, of which it asks nothing but what its statements say; no definition of a build
and no theorem depends on this module or on one below it. They give one value of the parameter,
`programs`, so that builds with commands such as `sh -c` can be run and compared; they are used by the
command line alone. -/
namespace LayerCache.Shell

/-- What a shell is told by its arguments. -/
structure Invocation where
  options : List Char := []
  operands : List String := []

/-- Options in front; a dash alone or two of them end these. -/
def Invocation.ofArguments (i : Invocation) : List String → Except String Invocation
  | [] => .ok i
  | "--" :: rest | "-" :: rest => .ok { i with operands := rest }
  | a :: rest => match a.toList with
    | '-' :: letters => match letters.find? fun c => !"abcefhilmnsuvxCEIV".toList.contains c with
      | some c => .error ("Illegal option -" ++ String.singleton c)
      | none => ofArguments { i with options := i.options ++ letters } rest
    | _ => .ok { i with operands := a :: rest }

/-- The text that a shell runs, its own name, and the arguments for the text. -/
structure Task where
  text : List Char
  name : String
  arguments : List String
  usesInput : Bool := false

def taskOf (p : Process) (i : Invocation) : Except String Task :=
  if i.options.contains 'c' then match i.operands with
    | [] => .error "-c requires an argument"
    | [text] => .ok ⟨text.toList, p.name, [], false⟩
    | text :: name :: arguments => .ok ⟨text.toList, name, arguments, false⟩
  else match i.options.contains 's', i.operands with
    | false, file :: arguments => match p.disk.read (Program.path file) with
      | .ok content => .ok ⟨Octets.ofBytes content, file, arguments, false⟩
      | .error fault =>
        .error ("cannot open " ++ file ++ ": " ++ openingTrouble fault "No such file")
    | _, arguments => .ok ⟨p.input, p.name, arguments, true⟩

/-- Scripts and calls of functions stand in each other no deeper than this. -/
def mostDepth : Nat := 3000

/-- Variables that every shell sets for itself. -/
def ownBindings : List (String × String) :=
  [("IFS", " \t\n"), ("OPTIND", "1"), ("PPID", "0"), ("PS1", "# "), ("PS2", "> "), ("PS4", "+ ")]

def State.ofTask (p : Process) (i : Invocation) (t : Task) : State :=
  let given := (p.bindings.pairs.filter fun (name, _) => Word.isName name).map fun (name, value) =>
    (name, Variable.mk (some value) true false)
  let own := ownBindings.map fun (name, value) => (name, Variable.mk (some value) false false)
  { disk := p.disk
    inputs := [if t.usesInput then .text [] else if p.rereads then .rereadable p.input
      else .text p.input]
    handles := .ofList <| [(0, Handle.input 0), (1, .caller 1), (2, .caller 2)].filterMap
      fun (stream, handle) => match p.broken.lookup stream with
        | none => some (stream, handle)
        | some .isFolder => some (stream, .folder)
        | some .noSpace => some (stream, .full)
        | some _ => none
    vars := (Dict.ofList (given ++ own)).insert "PWD" ⟨some (Program.here p.disk), true, false⟩
    name := t.name
    arguments := t.arguments
    options := i.options.filter (fun c => c != 'c' && c != 's') ++
      if t.usesInput then ['s'] else [] }

def State.effects (st : State) : Effects where
  ending := match st.jump with
    | some (.killed n) => .killed n
    | _ => .code (st.status % 256)
  writes := st.said
  input := (st.inputs.head?).elim [] (Feed.rest st.disk)
  disk := st.disk

/-- Runs a shell from its arguments to its end. -/
def start (launch : Launch) (p : Process) : Effects :=
  match (Invocation.ofArguments {} p.args).bind fun i => (taskOf p i).map (i, ·) with
  | .error text => Program.run p (Program.complain { p with name := p.name ++ ": 0" } text 2)
  | .ok (i, t) =>
    let e : Engine := ⟨launch, run launch mostDepth⟩
    let work : Act Unit := do
      if !t.text.isEmpty && !i.options.contains 'n' then e.runText t.text 1
      e.conclude
    (work.run (State.ofTask p i t)).2.effects

def shells : List String := ["sh", "dash", "bash"]

/-- Programs start each other no deeper than the number given. -/
def launch : Nat → Launch
  | 0 => fun _ => .error .denied
  | depth + 1 => fun p => do
    let (file, found) ← Program.locate (Program.foldersOf p.bindings) p.disk p.name
    match found with
    | .program name =>
      if shells.contains name then return start (launch depth) p
      else return Program.perform (launch depth) name p
    | .script text => match Program.interpreter? text with
      | some (name, option?) =>
        launch depth { p with name, args := option?.toList ++ file :: p.args }
      | none => throw .notExecutable

def mostPrograms : Nat := 30

/-- What every program is told. -/
def usualBindings : Bindings := ⟨[("HOME", "/root"), ("PATH", Program.usualFolders)]⟩

def unitName : String := "STRATA_UNIT"

/-- Compilers that are programs: the command and its arguments may hold no zero characters. -/
def programs : Programs := fun spec unit input d =>
  if (spec.command :: unit :: spec.args).any fun text => text.toList.contains (Char.ofNat 0) then
    .error "nul byte found in provided data"
  else
    let bindings := usualBindings.insert unitName (Octets.ofText unit)
    let process : Process :=
      { name := Octets.ofText spec.command, args := spec.args.map Octets.ofText, bindings
        input := Octets.ofBytes input, disk := d }
    match launch mostPrograms process with
    | .error fault => .error fault.message
    | .ok o =>
      let status := match o.ending with
        | .code n => .code n
        | .killed _ => .signal
      let written (stream : Nat) := Octets.toBytes (o.written stream)
      .ok (⟨status, written Program.output, written Program.errors⟩,
        { o.disk with here := d.here, mask := d.mask })

end LayerCache.Shell
