import LayerCache.Shell.Rules.Run

/-! The program that runs scripts of rules, with its options. -/
namespace LayerCache.Rules

/-- What the arguments ask for. -/
structure Demand where
  divider : Option (List Char) := none
  sets : List (String × List Char) := []
  scripts : List String := []
  operands : List String := []
  notes : List String := []
  /-- Something to show in place of a script. -/
  shows : Option String := none

namespace Demand

def usage : String := "Usage: mawk [Options] [Program] [file ...]

Program:
    The -f option value is the name of a file containing program text.
    If no -f option is given, a \"--\" ends option processing; the following
    parameters are the program text.

Options:
    -f program-file  Program  text is read from file instead of from the
                     command-line.  Multiple -f options are accepted.
    -F value         sets the field separator, FS, to value.
    -v var=value     assigns value to program variable var.
    --               unambiguous end of options.

    Implementation-specific options are prefixed with \"-W\".  They can be
    abbreviated:

    -W version       show version information and exit.
    -W compat        pre-POSIX 2001.
    -W dump          show assembler-like listing of program and exit.
    -W help          show this message and exit.
    -W interactive   set unbuffered output, line-buffered input.
    -W exec file     use file as program as well as last option.
    -W posix         stricter POSIX checking.
    -W random=number set initial random seed.
    -W sprintf=number adjust size of sprintf buffer.
    -W usage         show this message and exit.
"

def version : String := "mawk 1.3.4 20240123\n"

def words : List String :=
  ["version", "compat", "dump", "help", "interactive", "exec", "posix", "random", "sprintf",
    "usage"]

/-- What a word tells that may be cut short. -/
def word (d : Demand) (text : String) : Demand :=
  let name := String.ofList (text.toList.takeWhile (· != '='))
  match words.find? fun w => Text.startsWith w name with
  | some "version" => { d with shows := some version }
  | some "help" | some "usage" => { d with shows := some usage }
  | some _ => d
  | none => { d with notes := d.notes ++ ["vacuous option: -W \"" ++ text ++ "\""] }

/-- The demand of a list of arguments, or what is wrong with them. -/
def ofArgs : Nat → Demand → List String → Except String Demand
  | 0, d, operands => .ok { d with operands }
  | fuel + 1, d, args => match args with
    | [] => .ok d
    | a :: rest => match a.toList with
      | ['-', '-'] => .ok { d with operands := rest }
      | '-' :: '-' :: cs =>
        let name := String.ofList (cs.takeWhile (· != '='))
        if words.any (Text.startsWith · name) then
          ofArgs fuel (d.word (String.ofList cs)) rest
        else .error ("not an option: " ++ a)
      | '-' :: c :: cs =>
        if !"WFvf".toList.contains c then .error ("not an option: " ++ a)
        else match cs, rest with
          | [], [] => .error ("option " ++ a ++ " lacks argument")
          | [], value :: rest => value_ fuel d c value rest
          | cs, rest => value_ fuel d c (String.ofList cs) rest
      | _ => .ok { d with operands := a :: rest }
where
  value_ (fuel : Nat) (d : Demand) (c : Char) (value : String) (rest : List String) :
      Except String Demand :=
    let plain := Token.unescape (value.length + 1) value.toList
    match c with
    | 'F' => ofArgs fuel { d with divider := some plain } rest
    | 'f' => ofArgs fuel { d with scripts := d.scripts ++ [value] } rest
    | 'v' => match Act.operandSets? value.toList with
      | some (name, text) =>
        let plain := Token.unescape (text.length + 1) text
        ofArgs fuel { d with sets := d.sets ++ [(name, plain)] } rest
      | none => .error ("improper assignment: -v " ++ value)
    | _ => ofArgs fuel (d.word value) rest

end Demand

/-- The values that a script starts with. -/
def initial : List (String × Value) :=
  [("FS", .text [' ']), ("OFS", .text [' ']), ("RS", .text ['\n']), ("ORS", .text ['\n']),
    ("SUBSEP", .text ['\x1c']), ("CONVFMT", .text "%.6g".toList), ("OFMT", .text "%.6g".toList),
    ("NF", .ofNat 0), ("NR", .ofNat 0), ("FNR", .ofNat 0), ("RSTART", .ofNat 0),
    ("RLENGTH", .number (-1.0)), ("FILENAME", .text [])]

def Machine.start (p : Process) (d : Demand) (operands : List String) (effects : Effects) :
    Machine :=
  let args := (p.name :: operands).zipIdx.map fun (a, i) =>
    (Key.count (i : Nat), Value.given a.toList)
  let surroundings := p.bindings.pairs.map fun (n, v) => (Key.text n.toList, Value.given v.toList)
  let sets := (d.divider.toList.map fun cs => ("FS", cs)) ++ d.sets
  let values := initial ++ sets.map fun (n, cs) => (n, Value.given cs)
  let globals : Dict String Slot := values.foldl (fun g (n, value) => g.insert n { value }) .empty
  { effects
    globals := (globals.insert "ARGC" { value := .ofNat args.length }).insert "ARGV"
      { table := some 0 } |>.insert "ENVIRON" { table := some 1 }
    tables := #[.ofList args, .ofList surroundings]
    seed := .number (Figure.ofInt effects.disk.clock)
    chance := effects.disk.clock.toNat.toUInt64 }

/-- The message of a mistake in a script. -/
def Flaw.shown (file : String) (f : Flaw) : String :=
  file ++ (if Text.startsWith f.message "unexpected character" then "" else "line ") ++
    toString f.line ++ ": " ++ f.message

open Program in
def applyAs (launch : Launch) (p : Process) : Work Unit := do
  match Demand.ofArgs (p.args.length + 1) {} p.args with
  | .error flaw => complain p flaw 2
  | .ok d =>
    d.notes.forM fun note => complain p note 0
    match d.shows with
    | some text => print text.toList
    | none => match d.scripts, d.operands with
      | [], [] => if p.args.contains "--" then pure () else write errors Demand.usage.toList
      | [], text :: operands => start d text.toList "" operands
      | files, operands => do
        let texts ← files.mapM fun file => do
          match ← readFile file with
          | .ok text =>
            return Except.ok (if text.getLast? = some '\n' then text else text ++ ['\n'])
          | .error .isFolder => return .error Act.readError
          | .error fault =>
            return .error ("cannot open \"" ++ file ++ "\" (" ++ fault.reason ++ ")")
        match texts.mapM id with
        | .error flaw => complain p flaw 2
        | .ok texts => start d texts.flatten ((files.headD "") ++ ": ") operands
where
  start (d : Demand) (text : List Char) (file : String) (operands : List String) : Work Unit := do
    let dividers := d.divider.toList ++ d.sets.filterMap fun (n, cs) =>
      if n = "FS" || n = "RS" then some cs else none
    let wrong? := dividers.findSome? fun cs => match Divider.ofText cs with
      | .error flaw => some (flaw.message ++ ")\n" ++ String.ofList cs)
      | .ok _ => none
    if let some wrong := wrong? then
      complain p ("line 0: regular expression compile failed (" ++ wrong) 2
      return
    match Script.ofText text with
    | .error flaws => flaws.forM fun f => complain p (f.shown file) 2
    | .ok script =>
      let m := Machine.start p d operands (← get)
      let (_, m) := (Run.all ⟨p, launch, script⟩).run.run m
      set { m.effects with ending := m.status.elim (.killed 11) .code }

/-- Runs rules on the records of its input, or of the files named. -/
def applyRules (launch : Launch) (p : Process) : Work Unit :=
  applyAs launch { p with name := ((Text.split '/' p.name).getLast?).getD p.name }

end LayerCache.Rules
