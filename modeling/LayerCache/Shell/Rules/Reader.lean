import LayerCache.Shell.Rules.Phrases

/-! Scripts of rules read from their text. -/
namespace LayerCache.Rules
namespace Reader

def nextIsEither (signs : List String) : Read Bool :=
  return signs.any (isSign (← next?))

/-- Takes what ends a statement; a closing brace does so too and stays. -/
def separator : Read Unit := do
  match ← next? with
  | some .newline | some (.sign ";") | some (.sign "end of line") =>
    skip
    eatNewlines
  | some (.sign "\x7d") => pure ()
  | _ => wrong

def endsStatement : Read Bool := do
  return ((← next?).elim true (· matches .newline)) || (← nextIsEither [";", "\x7d"])

def inParens {α : Type} (read : Read α) : Read α := do
  sign "("
  modify fun s => { s with parens := s.parens + 1 }
  let x ← read
  sign ")"
  modify fun s => { s with parens := s.parens - 1 }
  return x

def optional (fuel : Nat) : Read (Option Expr) := do
  if ← endsStatement then return none else return some (← expr fuel true)

/-- What is printed, perhaps in parentheses. -/
def printed (fuel : Nat) : Read (List Expr) := do
  if (← endsStatement) || (← nextIsEither [">", ">>", "|"]) then return []
  let s ← get
  if isSign ((s.rest.drop 1).head?.map Lexeme.token) ")" && (← nextIs "(") then
    skip
    skip
    return []
  if ← nextIs "(" then
    let parts ← grouped fuel
    if 2 ≤ parts.length && !(← keywordIs "in") then return parts
    set s
  list fuel false

/-- Where output goes. An equals sign behind that for a file is wrong. -/
def target? (fuel : Nat) : Read (Option (Target × Expr)) := do
  if ← nextIs ">=" then fail "syntax error at or near ="
  match signOf? [(">", Target.file), (">>", .ending), ("|", .command)] (← next?) with
  | none => return none
  | some target =>
    skip
    return some (target, ← expr fuel true)

/-- The names in a loop through a table. -/
def tableLoop? : List Lexeme → Option (String × String)
  | ⟨.name n _, _⟩ :: ⟨.keyword "in", _⟩ :: ⟨.name table _, _⟩ :: ⟨.sign ")", _⟩ :: _ =>
    some (n, table)
  | _ => none

/-- Reads what is repeated. -/
def looping (read : Read Statement) : Read Statement := do
  modify fun s => { s with loops := s.loops + 1 }
  let body ← read
  modify fun s => { s with loops := s.loops - 1 }
  return body

def inLoop (k : String) (statement : Statement) : Read Statement := do
  if (← get).loops = 0 then fail (k ++ " statement outside of loop")
  separator
  return statement

def inRule (k : String) (statement : Statement) : Read Statement := do
  if !(← get).inRule then fail ("improper use of " ++ k)
  separator
  return statement

/-- What a keyword begins that holds no other statement. -/
def simple (fuel : Nat) (k : String) : Read Statement := do
  match k with
  | "print" =>
    let args ← printed fuel
    let goal ← target? fuel
    separator
    return .print args goal
  | "printf" =>
    let args ← printed fuel
    if args.isEmpty then fail "no arguments in call to printf"
    let goal ← target? fuel
    separator
    return .printf args goal
  | "next" => inRule k .next
  | "nextfile" => inRule k .nextFile
  | "break" => inLoop k .break
  | "continue" => inLoop k .continue
  | "exit" =>
    let status ← optional fuel
    separator
    return .exit status
  | "return" =>
    if !(← get).inRoutine then fail "return outside function body"
    let value ← optional fuel
    separator
    return .return value
  | "delete" =>
    let table ← takeName
    let index ← if ← nextIs "[" then do
        skip
        let index ← list fuel true
        sign "]"
        pure (some index)
      else pure none
    separator
    return .delete table index
  | _ => wrong

mutual

def statement (fuel : Nat) : Read Statement :=
  match fuel with
  | 0 => wrong
  | fuel + 1 => do
    match ← next? with
    | some .newline | some (.sign ";") =>
      separator
      return .block []
    | some (.sign "\x7d") => return .block []
    | some (.sign "\x7b") => block fuel
    | some (.keyword "if") =>
      skip
      let test ← inParens (expr fuel true)
      eatNewlines
      let yes ← statement fuel
      if ← keywordIs "else" then
        skip
        eatNewlines
        return .branch test yes (some (← statement fuel))
      else return .branch test yes none
    | some (.keyword "while") =>
      skip
      let test ← inParens (expr fuel true)
      eatNewlines
      return .while test (← looping (statement fuel))
    | some (.keyword "do") =>
      skip
      eatNewlines
      let body ← looping (statement fuel)
      if ← keywordIs "while" then
        skip
        let test ← inParens (expr fuel true)
        separator
        return .doWhile body test
      else wrong
    | some (.keyword "for") =>
      skip
      sign "("
      modify fun s => { s with parens := s.parens + 1 }
      forLoop fuel
    | some (.keyword "getline") => exprStatement fuel
    | some (.keyword k) =>
      if ["in", "else", "function", "BEGIN", "END"].contains k then wrong
      skip
      simple fuel k
    | _ => exprStatement fuel

def exprStatement (fuel : Nat) : Read Statement :=
  match fuel with
  | 0 => wrong
  | fuel + 1 => do
    let e ← expr fuel true
    separator
    return .expr e

/-- A loop, behind its opening parenthesis. -/
def forLoop (fuel : Nat) : Read Statement :=
  match fuel with
  | 0 => wrong
  | fuel + 1 => do
    let close : Read Unit := do
      sign ")"
      modify fun s => { s with parens := s.parens - 1 }
      eatNewlines
    match tableLoop? (← get).rest with
    | some (name, table) =>
      skip
      skip
      skip
      close
      return .forEach name table (← looping (statement fuel))
    | none =>
      let start ← if ← nextIs ";" then pure none else some <$> expr fuel true
      sign ";"
      eatNewlines
      let test ← if ← nextIs ";" then pure none else some <$> expr fuel true
      sign ";"
      eatNewlines
      let step ← if ← nextIs ")" then pure none else some <$> expr fuel true
      close
      return .for start test step (← looping (statement fuel))

/-- Statements in braces. Behind the last brace a semicolon means nothing. -/
def block (fuel : Nat) : Read Statement :=
  match fuel with
  | 0 => wrong
  | fuel + 1 => do
    sign "\x7b"
    modify fun s => { s with braces := s.braces + 1 }
    eatNewlines
    let parts ← statements fuel
    sign "\x7d"
    modify fun s => { s with braces := s.braces - 1 }
    if (← get).braces = 0 && (← nextIs ";") then skip
    eatNewlines
    return .block parts

def statements (fuel : Nat) : Read (List Statement) :=
  match fuel with
  | 0 => return []
  | fuel + 1 => do
    if ← nextIs "\x7d" then return []
    let first ← statement fuel
    return first :: (← statements fuel)

end

/-- Names between parentheses. -/
def parameters : Nat → Read (List String)
  | 0 => return []
  | fuel + 1 => do
    if ← nextIs ")" then return []
    let n ← takeName
    if ← nextIs "," then
      skip
      eatNewlines
      let others ← parameters fuel
      if others.contains n then fail (n ++ " is duplicated in argument list")
      return n :: others
    else return [n]

def routine (fuel : Nat) : Read (String × Routine) := do
  skip
  let n ← takeName
  modify fun s => { s with routines := n :: s.routines }
  let parameters ← inParens (parameters fuel)
  let names := (← get).names
  modify fun s => { s with inRoutine := true, names := parameters }
  eatNewlines
  let body ← block fuel
  modify fun s => { s with inRoutine := false, names }
  return (n, ⟨parameters, body⟩)

/-- A pattern, and what is done where it holds. -/
def rule (fuel : Nat) : Read (Pick × Option Statement) := do
  modify fun s => { s with inRule := true }
  let pick ← if ← nextIs "\x7b" then pure Pick.always else do
    let first ← expr fuel true
    if ← nextIs "," then do
      skip
      eatNewlines
      pure (.between first (← expr fuel true))
    else pure (.matching first)
  let body ← if ← nextIs "\x7b" then some <$> block fuel else do
    separator
    pure none
  modify fun s => { s with inRule := false }
  return (pick, body)

def items : Nat → Script → Read Script
  | 0, s => return s
  | fuel + 1, s => do
    match ← next? with
    | none => return s
    | some (.keyword "BEGIN") =>
      skip
      items fuel { s with begins := s.begins ++ [← block fuel] }
    | some (.keyword "END") =>
      skip
      items fuel { s with ends := s.ends ++ [← block fuel] }
    | some (.keyword "function") =>
      let r ← routine fuel
      if (s.routines.lookup r.1).isSome then fail ("redefinition of " ++ r.1)
      items fuel { s with routines := s.routines ++ [r] }
    | _ => items fuel { s with rules := s.rules ++ [← rule fuel] }

/-- Calls of routines that take fewer values, and of those that there are not, the last one
first. -/
def badCalls (s : Script) (calls : List (String × Nat × Nat)) (lastLine : Nat) : List Flaw :=
  let unknown := (calls.map Prod.fst).eraseDups.filter fun n => (s.routines.lookup n).isNone
  let crowded := calls.filter fun (n, count, _) =>
    (s.routines.lookup n).any fun r => r.parameters.length < count
  crowded.map (fun (n, _, line) => ⟨line, "too many arguments in call to " ++ n⟩) ++
    unknown.reverse.map fun n => ⟨lastLine, "function " ++ n ++ " never defined"⟩

end Reader

/-- A script, or what is wrong with its text. -/
def Script.ofText (text : List Char) : Except (List Flaw) Script :=
  let (words, extra) := Token.lex (text.length + 2) 1 none 0 0 (text ++ ['\n'])
  let flaws := extra.map fun (line, message) => Flaw.mk line message
  let fuel := 40 * words.length + 100
  let read : Reader.Read Script := do
    Reader.eatNewlines
    Reader.items fuel {}
  match read.run { rest := words } with
  | .ok (s, state) =>
    let flaws := flaws ++ Reader.badCalls s state.calls state.line
    if flaws.isEmpty then .ok s else .error flaws
  | .error flaw => .error (flaws.filter (·.line ≤ flaw.line) ++ [flaw])

end LayerCache.Rules
