import LayerCache.Shell.Expand

/-! Connecting streams to files, pipes, texts and each other. -/
namespace LayerCache.Shell

/-- The stream that a file stands for by its name. -/
def streamNamed? (name : String) : Option Nat :=
  match name with
  | "/dev/stdin" => some 0
  | "/dev/stdout" => some 1
  | "/dev/stderr" => some 2
  | name => ((Text.afterStart? "/dev/fd/" name).or (Text.afterStart? "/proc/self/fd/" name)).bind
    Text.number?

/-- A way to a file that does not exist is told apart from other trouble. -/
def openingTrouble (fault : Fault) (missing : String) : String :=
  if fault = .notFound || fault = .notFolder then missing else fault.reason

def connectFeed (stream : Nat) (f : Feed) : Act Unit :=
  modify fun st =>
    { st with inputs := st.inputs ++ [f] }.connect stream (.input st.inputs.length)

def connectInput (stream : Nat) (text : List Char) : Act Unit := connectFeed stream (.text text)

def openInput (stream : Nat) (name : String) : Act Bool := do
  let d := (← get).disk
  match d.stat (Program.path name) with
  | .ok (_, .folder) => modify (·.connect stream .folder)
  | .ok (_, .file serial content) => connectFeed stream (.file serial 0 content)
  | .ok (_, .device device) => connectFeed stream (.rereadable (Octets.ofBytes device.content))
  | .ok _ => connectFeed stream (.rereadable (Octets.ofBytes Disk.code))
  | .error fault =>
    complain ("cannot open " ++ name ++ ": " ++ openingTrouble fault "No such file") 2
    return false
  return true

/-- A file for output is there from then on, empty unless it is added to. One that is there may
have to be kept. -/
def openOutput (stream : Nat) (adds keeps : Bool) (name : String) : Act Bool := do
  let st ← get
  let result : Except Fault (Handle × Disk) := do
    match ← st.disk.find .file (Program.path name) with
    | .taken _ (.file serial content) =>
      if keeps then throw .exists
      return (.file serial, st.disk.rewrite serial (if adds then content else .empty))
    | .taken _ (.device device) => return (if device = .full then .full else .sink, st.disk)
    | .taken _ .folder => throw .isFolder
    | .taken _ _ => throw .denied
    | .free folder name =>
      return (.file st.disk.fresh, st.disk.addFile (folder ++ [name]) .empty)
  match result with
  | .ok (handle, disk) =>
    set ({ st with disk }.connect stream handle)
    return true
  | .error fault =>
    complain ("cannot create " ++ name ++ ": " ++ openingTrouble fault "Directory nonexistent") 2
    return false

/-- Makes a stream another name of what a number stands for now. -/
def connectSame (stream : Nat) (text : String) : Act Bool := do
  let st ← get
  if text = "-" then
    set { st with handles := st.handles.erase stream }
    return true
  else match Text.number? text with
    | none =>
      giveUp "Syntax error: Bad fd number"
      return false
    | some n => match st.handles.find? n with
      | some handle =>
        set (st.connect stream handle)
        return true
      | none =>
        complain (text ++ ": Bad file descriptor") 2
        return false

def connect (capture : Capture) (r : Redirect) : Act Bool := do
  match r with
  | .file stream opening w =>
    let name ← expandName capture w
    if ← hasJumped then return false
    match streamNamed? name with
    | some n => connectSame stream (toString n)
    | none => match opening with
      | .read => openInput stream name
      | .write => openOutput stream false ((← get).has 'C') name
      | .overwrite => openOutput stream false false name
      | .append => openOutput stream true false name
      | .both =>
        if (← get).disk.exists (Program.path name) then openInput stream name
        else openOutput stream true false name
  | .same stream w =>
    let text ← expandText capture w
    if ← hasJumped then return false else connectSame stream text
  | .text stream w =>
    let text ← expandText capture w
    if ← hasJumped then
      containing (pure ())
      return false
    connectInput stream text.toList
    return true

/-- Connects streams in turn, up to the first that cannot be. -/
def connectAll (capture : Capture) : List Redirect → Act Bool
  | [] => return true
  | r :: rest => do if ← connect capture r then connectAll capture rest else return false

/-- Does something with redirected streams and puts them back; tells whether it could be done. -/
def redirecting (capture : Capture) (redirects : List Redirect) (work : Act Unit) : Act Bool := do
  let before ← get
  let good ← connectAll capture redirects
  if good then work
  modify fun st =>
    { st with handles := before.handles, inputs := st.inputs.take before.inputs.length }
  return good

end LayerCache.Shell
