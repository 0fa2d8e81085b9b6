import LayerCache.Build.Run

/-! Builds in the background, one at a time. Whoever hears the lines of a running build may cancel
it or submit another one, which is refused. -/
namespace LayerCache

/-- What a listener may do when it hears a line. Whoever submits a build says as well what its own
listener does at each line of it. -/
inductive Action where
  | order (env : Environment) (schedule : Nat → List Action)
  | cancel

/-- A submission whose listener only listens. -/
def Action.submit (env : Environment) : Action := .order env fun _ => []

namespace Worker

/-- What is done at each line, counted from one. -/
abbrev Schedule := Nat → List Action

end Worker

/-- A submission that was accepted. Whoever holds the ticket is sent the result. -/
structure Request where
  ticket : Nat
  env : Environment
  schedule : Worker.Schedule

/-- What the worker and its callers share: two flags, how many tickets were given out, and what is
on its way between them. -/
structure Worker where
  busy : Bool
  cancelled : Bool
  tickets : Nat := 0
  requests : List Request := []
  results : List (Nat × Except BuildError Report) := []

/-- What came of a submission: whether the worker was busy then, and whether it was accepted. -/
structure Reply where
  busy : Bool
  result : Except BuildError Unit

namespace Worker

def idle : Worker := { busy := false, cancelled := false }

/-- A worker that is free takes a build and forgets earlier cancellations. -/
def submit (w : Worker) (env : Environment) (schedule : Schedule) :
    Except BuildError Nat × Worker :=
  if w.busy then (.error .busy, w)
  else (.ok w.tickets, { w with
    busy := true
    cancelled := false
    tickets := w.tickets + 1
    requests := w.requests ++ [⟨w.tickets, env, schedule⟩] })

/-- The first submission on its way is taken up. -/
def receive (w : Worker) : Option (Request × Worker) :=
  match w.requests with
  | [] => none
  | r :: rest => some (r, { w with requests := rest })

def cancel (w : Worker) : Worker := { w with cancelled := true }

def finish (w : Worker) : Worker := { w with busy := false }

def send (w : Worker) (ticket : Nat) (result : Except BuildError Report) : Worker :=
  { w with results := w.results ++ [(ticket, result)] }

/-- What the holder of a ticket receives. -/
def resultOf (w : Worker) (ticket : Nat) : Except BuildError Report :=
  (w.results.lookup ticket).getD (.error .stopped)

def act (w : Worker) : Action → List Reply × Worker
  | .cancel => ([], w.cancel)
  | .order env schedule =>
    let (result, next) := w.submit env schedule
    ([⟨w.busy, result.map fun _ => ()⟩], next)

def actAll (w : Worker) : List Action → List Reply × Worker
  | [] => ([], w)
  | action :: rest =>
    let (replies, w) := w.act action
    let (others, w) := w.actAll rest
    (replies ++ others, w)

/-- The worker once so many lines have been heard. -/
def after (schedule : Schedule) (w : Worker) : Nat → List Reply × Worker
  | 0 => ([], w)
  | n + 1 =>
    let (replies, w) := after schedule w n
    let (others, w) := w.actAll (schedule (n + 1))
    (replies ++ others, w)

/-- What becomes of a submission. -/
structure Delivery where
  result : Except BuildError Report
  lines : List String
  replies : List Reply

def linesOf (result : Except BuildError Report) : List String :=
  match result with
  | .ok report => report.summary.lines
  | .error _ => []

/-- What is done for a request, from the question whether to stop to the result, the lines heard by
then and what is left behind. A breakdown is a result as well. -/
abbrev Work := Environment → Cancel → Site → Except BuildError Report × List String × Site

/-- Does the work of the first request, which sees what its listener does to the worker. The worker
is free again before the result is sent. -/
def serve (work : Work) (w : Worker) (s : Site) : List String × List Reply × Worker × Site :=
  match w.receive with
  | none => ([], [], w, s)
  | some (r, taken) =>
    let cancel : Cancel := fun heard _ => (after r.schedule taken heard).2.cancelled
    let (result, lines, s) := work r.env cancel s
    let (replies, w) := after r.schedule taken lines.length
    (lines, replies, w.finish.send r.ticket result, s)

/-- Submits a request and waits for its result. -/
def order (work : Work) (env : Environment) (schedule : Schedule) (w : Worker) (s : Site) :
    Delivery × Worker × Site :=
  match w.submit env schedule with
  | (.error e, w) => (⟨.error e, [], []⟩, w, s)
  | (.ok ticket, w) =>
    let (lines, replies, w, s) := w.serve work s
    (⟨w.resultOf ticket, lines, replies⟩, w, s)

/-- The work is a whole build that somebody listens to. -/
def building (b : Builder) : Work := fun env cancel s =>
  let (result, s) := b.build env true cancel s
  (result, linesOf result, s)

/-- Submits a build and waits for it. -/
def run (b : Builder) (env : Environment) (schedule : Schedule) (w : Worker) (s : Site) :
    Delivery × Worker × Site :=
  w.order (building b) env schedule s

end Worker
end LayerCache
