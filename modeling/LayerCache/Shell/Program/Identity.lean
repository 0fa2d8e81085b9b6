import LayerCache.Shell.Program.Sizes
import LayerCache.Shell.Program.Start

/-! Programs that tell who runs them and on what, and where others are. -/
namespace LayerCache.Program

/-- Runs work without operands. -/
def alone (p : Process) (o : Options) (status : Nat) (work : Work Unit) : Work Unit :=
  match o.operands with
  | [] => work
  | extra :: _ => askForHelp p ("extra operand " ++ quotedFile extra) status

/-- A program that only tells one line. -/
def tellLine (p : Process) (line : String) : Work Unit :=
  withOptions p {} fun o => alone p o 1 (printLine line.toList)

namespace Identity

/-- Users by their names, with their numbers and their groups. -/
def users : List (String × Nat × String) :=
  [("root", 0, "root"), ("daemon", 1, "daemon"), ("bin", 2, "bin"), ("sys", 3, "sys"),
    ("nobody", 65534, "nogroup")]

def user? (text : String) : Option (String × Nat × String) :=
  (users.find? fun (name, _, _) => name = text).or
    ((Text.number? text).bind fun n => users.find? fun (_, m, _) => m = n)

def usage : Usage where
  bare := "agnruzGZ"
  long := [("context", 'Z'), ("group", 'g'), ("groups", 'G'), ("name", 'n'), ("real", 'r'),
    ("user", 'u'), ("zero", 'z')]

def described (user : String × Nat × String) : String :=
  let (name, n, group) := user
  let shown (name : String) := toString n ++ "(" ++ name ++ ")"
  "uid=" ++ shown name ++ " gid=" ++ shown group ++ " groups=" ++ shown group

def tell (o : Options) (user : String × Nat × String) : Work Unit :=
  let (name, n, group) := user
  let ending := if o.has 'z' then Char.ofNat 0 else '\n'
  let text := if !o.hasAny "ugG" then described user
    else if !o.has 'n' then toString n
    else if o.has 'u' then name else group
  print (text.toList ++ [ending])

end Identity

def identity (p : Process) : Work Unit :=
  withOptions p Identity.usage fun o => do
    let kinds := "ugG".toList.filter o.has
    if o.has 'Z' then complain p "--context (-Z) works only on an SELinux-enabled kernel"
    else if 1 < kinds.length then complain p "cannot print \"only\" of more than one choice"
    else if kinds.isEmpty && (o.has 'n' || o.has 'r') then
      complain p "cannot print only names or real IDs in default format"
    else if kinds.isEmpty && o.has 'z' then
      complain p "option --zero not permitted in default format"
    else if o.operands.isEmpty then Identity.tell o ("root", 0, "root")
    else o.operands.forM fun name => match Identity.user? name with
      | some user => Identity.tell o user
      | none => complain p (quoted name ++ ": no such user")

def tellGroups (p : Process) : Work Unit :=
  withOptions p {} fun o =>
    if o.operands.isEmpty then printLine "root".toList
    else o.operands.forM fun name => match Identity.user? name with
      | some (_, _, group) => printLine (name ++ " : " ++ group).toList
      | none => complain p (quoted name ++ ": no such user")

def tellLogin (p : Process) : Work Unit :=
  withOptions p {} fun o => alone p o 1 (complain p "no login name")

/-- No stream is a terminal. -/
def tellTerminal (p : Process) : Work Unit :=
  withOptions p ⟨"s", "", [("silent", 's'), ("quiet", 's')], true, ""⟩ (fun o =>
    alone p o 2 do
      if !o.has 's' then printLine "not a tty".toList
      finish 1) 2

namespace System

/-- What is known of the system, in the order in which it is told. -/
def facts : List (Char × String) :=
  [('s', "Linux"), ('n', "localhost"), ('r', "6.1.0"), ('v', "#1 SMP"), ('m', "x86_64"),
    ('p', "x86_64"), ('i', "x86_64"), ('o', "GNU/Linux")]

def usage : Usage where
  bare := "asnrvmpio"
  long := [("all", 'a'), ("kernel-name", 's'), ("nodename", 'n'), ("kernel-release", 'r'),
    ("kernel-version", 'v'), ("machine", 'm'), ("processor", 'p'), ("hardware-platform", 'i'),
    ("operating-system", 'o')]

end System

def tellSystem (p : Process) : Work Unit :=
  withOptions p System.usage fun o => alone p o 1 do
    let told := System.facts.filter fun (c, _) =>
      o.has c || o.has 'a' || (c = 's' && o.given.isEmpty)
    printLine (Text.join " " (told.map Prod.snd)).toList

def processors : Nat := 2

def countProcessors (p : Process) : Work Unit :=
  withOptions p ⟨"", "", [("all", 'a'), ("ignore=", 'i')], true, ""⟩ fun o => alone p o 1 do
    let text := (o.value? 'i').getD "0"
    match Sizes.ofText "" text with
    | .ok n => printLine (naturals (max 1 (processors - n)))
    | .error _ => complain p ("invalid number: " ++ quoted text)

/-- Repeats a line. Nobody waits for more than is told here. -/
def repeatLine (p : Process) : Work Unit :=
  withOptions p {} fun o => do
    let line := (if o.operands.isEmpty then "y" else Text.join " " o.operands).toList ++ ['\n']
    let most : Nat := 262144
    print (List.replicate (most / line.length + 1) line).flatten

/-- All is on the disk already. -/
def synchronize (p : Process) : Work Unit :=
  withOptions p ⟨"df", "", [("data", 'd'), ("file-system", 'f')], true, ""⟩ fun o => do
    if o.has 'd' && o.has 'f' then complain p "cannot specify both --data and --file-system"
    else if o.has 'd' && o.operands.isEmpty then complain p "--data needs at least one argument"
    else o.operands.forM fun name => do
      match (← get).disk.stat (path name) with
      | .ok _ => pure ()
      | .error fault => complain p ("error opening " ++ quotedFile name ++ ": " ++ fault.reason)

/-- Where programs are; those that are not found are left out. -/
def whereIs (p : Process) : Work Unit := do
  let options := p.args.takeWhile fun a => Text.startsWith a "-" && a != "-" && a != "--"
  let letters := options.flatMap fun a => a.toList.drop 1
  let rest := p.args.drop options.length
  let names := if rest.head? = some "--" then rest.drop 1 else rest
  match letters.find? fun c => c != 'a' && c != 's' with
  | some c =>
    write errors ("Illegal option -" ++ String.singleton c ++ "\n").toList
    printLine "Usage: /usr/bin/which [-as] args".toList
    finish 2
  | none =>
    if names.isEmpty then finish 1
    let d := (← get).disk
    names.forM fun name => do
      let places := if name.toList.contains '/' then [name]
        else (Text.split ':' (foldersOf p.bindings)).map fun folder =>
          (if folder = "" then "." else folder) ++ "/" ++ name
      let found := places.filter fun file =>
        name != "" && (startableAt d (path file)) matches .ok _
      if found.isEmpty then finish 1
      if !letters.contains 's' then
        (if letters.contains 'a' then found else found.take 1).forM fun file =>
          printLine file.toList

namespace Buffers

def usage : Usage where
  valued := "ioe"
  long := [("input=", 'i'), ("output=", 'o'), ("error=", 'e')]
  anywhere := false

/-- What is wrong with a mode of one of the streams. -/
def flaw? (option : Char × String) : Option (String × Bool) :=
  let (c, text) := option
  if text = "L" then
    if c = 'i' then some ("line buffering stdin is meaningless", true) else none
  else match Sizes.ofText Sizes.usual text with
    | .ok _ => none
    | .error flaw => some ("invalid mode " ++ quoted text ++ flaw.reason, false)

end Buffers

/-- How streams are buffered makes no difference here. -/
def withBuffers (launch : Launch) (p : Process) : Work Unit :=
  withOptions p Buffers.usage (fun o =>
    match o.given.findSome? Buffers.flaw?, o.operands with
    | some (text, true), _ => askForHelp p text 125
    | some (text, false), _ => complain p text 125
    | none, [] => askForHelp p "missing operand" 125
    | none, name :: args =>
      if o.given.isEmpty then askForHelp p "you must specify a buffering mode option" 125
      else startCommand launch p name args "failed to run command ") 125

end LayerCache.Program
