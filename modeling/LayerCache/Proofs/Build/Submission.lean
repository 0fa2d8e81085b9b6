import LayerCache.Build.Worker

/-! One build at a time. A worker takes up a build only when no other is on its way, so whatever
its listener submits until the build ends is refused, and whatever it cancels is this build. -/
namespace LayerCache.Worker

variable {w : Worker} {schedule : Schedule}

/-- Whether a cancellation answered one of the lines heard so far. -/
def asksStop (schedule : Schedule) (heard : Nat) : Bool :=
  (List.range heard).any fun n => (schedule (n + 1)).any (· matches .cancel)

/-- How many builds were submitted at the lines heard so far. -/
def submissions (schedule : Schedule) (heard : Nat) : Nat :=
  ((List.range heard).flatMap fun n => schedule (n + 1)).countP (· matches .order ..)

def refusal : Reply := ⟨true, .error .busy⟩

/-- The worker after all its callers did was to cancel, or nothing. -/
def pressed (w : Worker) (stop : Bool) : Worker := { w with cancelled := w.cancelled || stop }

@[simp] theorem busy_pressed (w : Worker) (stop : Bool) : (w.pressed stop).busy = w.busy := rfl

@[simp] theorem pressed_pressed (w : Worker) (first second : Bool) :
    (w.pressed first).pressed second = w.pressed (first || second) := by
  simp [pressed, Bool.or_assoc]

@[simp] theorem pressed_false (w : Worker) : w.pressed false = w := by simp [pressed]

theorem submit_busy (busy : w.busy = true) (env : Environment) (schedule : Schedule) :
    w.submit env schedule = (.error .busy, w) := by
  simp [submit, busy]

theorem act_busy (busy : w.busy = true) (action : Action) :
    w.act action = (List.replicate ([action].countP (· matches .order ..)) refusal,
      w.pressed ([action].any (· matches .cancel))) := by
  cases action with
  | order env schedule => simp [act, submit_busy busy, busy, refusal, Except.map]
  | cancel => simp [act, cancel, pressed]

theorem actAll_busy (busy : w.busy = true) (actions : List Action) :
    w.actAll actions = (List.replicate (actions.countP (· matches .order ..)) refusal,
      w.pressed (actions.any (· matches .cancel))) := by
  induction actions generalizing w with
  | nil => simp [actAll]
  | cons action rest ih =>
    have later := ih (w := w.pressed ([action].any (· matches .cancel))) busy
    simp only [actAll, act_busy busy, later, List.replicate_append_replicate, pressed_pressed]
    rw [← List.countP_append, ← List.any_append, List.singleton_append]

/-- What a listener does during a build comes to refusals and to the flag. -/
theorem after_busy (busy : w.busy = true) (schedule : Schedule) (heard : Nat) :
    after schedule w heard = (List.replicate (submissions schedule heard) refusal,
      w.pressed (asksStop schedule heard)) := by
  induction heard with
  | zero => simp [after, submissions, asksStop]
  | succ n ih =>
    have later := actAll_busy (w := w.pressed (asksStop schedule n)) busy (schedule (n + 1))
    simp only [after, ih, later, List.replicate_append_replicate, pressed_pressed]
    simp [submissions, asksStop, List.range_succ]

/-- The work of a build sees no more of its listener than whether it has cancelled. -/
theorem serve_busy {work : Work} {r : Request} {taken : Worker} {s s' : Site} {lines : List String}
    {result : Except BuildError Report} (received : w.receive = some (r, taken))
    (busy : taken.busy = true) (fresh : taken.cancelled = false)
    (worked : work r.env (fun heard _ => asksStop r.schedule heard) s = (result, lines, s')) :
    w.serve work s = (lines, List.replicate (submissions r.schedule lines.length) refusal,
      (taken.pressed (asksStop r.schedule lines.length)).finish.send r.ticket result, s') := by
  have asked : (fun heard (_ : Nat) => (taken.pressed (asksStop r.schedule heard)).cancelled) =
      fun heard _ => asksStop r.schedule heard := by
    funext heard checks
    simp [pressed, fresh]
  simp only [serve, received, after_busy busy, asked, worked]

/-- No build is on its way: every ticket that was given out has its one result. -/
structure Ready (w : Worker) : Prop where
  free : w.busy = false
  empty : w.requests = []
  settled : w.results.map Prod.fst = List.range w.tickets

theorem ready_idle : idle.Ready := ⟨rfl, rfl, rfl⟩

/-- The state of a worker in the middle of a build. Every other build that was ever accepted has its
result, and none is accepted. -/
structure Engaged (w : Worker) : Prop where
  busy : w.busy = true
  empty : w.requests = []
  alone : w.tickets = w.results.length + 1
  refuses : ∀ env schedule, w.submit env schedule = (.error .busy, w)

/-- A build that is asked for from outside, and what its listener does. -/
structure Order where
  env : Environment
  schedule : Schedule

/-- The worker when it has just taken up an order. -/
def started (w : Worker) : Worker :=
  { w with busy := true, cancelled := false, tickets := w.tickets + 1, requests := [] }

/-- What becomes of an order: it is accepted, its work is done as if its listener could do nothing
but cancel, and its submitter gets the result. -/
structure Fulfils (work : Work) (w : Worker) (s : Site) (o : Order) (d : Delivery) (w' : Worker)
    (s' : Site) : Prop where
  accepted : (w.submit o.env o.schedule).1 = .ok w.tickets
  received : (w.submit o.env o.schedule).2.receive =
    some (⟨w.tickets, o.env, o.schedule⟩, w.started)
  moments : ∀ heard, (after o.schedule w.started heard).2.Engaged ∧
    (after o.schedule w.started heard).2.cancelled = asksStop o.schedule heard
  worked : work o.env (fun heard _ => asksStop o.schedule heard) s = (d.result, d.lines, s')
  refused : d.replies = List.replicate (submissions o.schedule d.lines.length) refusal
  answered : w'.results = w.results ++ [(w.tickets, d.result)]
  ready : w'.Ready

/-- The worker when it has sent the result of that order. -/
def ended (w : Worker) (stop : Bool) (result : Except BuildError Report) : Worker :=
  (w.started.pressed stop).finish.send w.tickets result

namespace Ready

theorem submit_eq (ready : w.Ready) (env : Environment) (schedule : Schedule) :
    w.submit env schedule =
      (.ok w.tickets, { w.started with requests := [⟨w.tickets, env, schedule⟩] }) := by
  simp [submit, ready.free, ready.empty, started]

theorem length_results (ready : w.Ready) : w.results.length = w.tickets := by
  simpa using congrArg List.length ready.settled

theorem engaged (ready : w.Ready) (stop : Bool) : (w.started.pressed stop).Engaged where
  busy := rfl
  empty := rfl
  alone := by simp [started, pressed, ready.length_results]
  refuses := submit_busy rfl

/-- A ticket that was never given out before has the result that is sent for it. -/
theorem resultOf_send (ready : w.Ready) {w' : Worker} (same : w'.results = w.results)
    (result : Except BuildError Report) :
    (w'.send w.tickets result).resultOf w.tickets = result := by
  have unanswered : w.results.lookup w.tickets = none := by
    refine List.lookup_eq_none_iff.mpr fun pair member => ?_
    have known : pair.1 ∈ List.range w.tickets := ready.settled ▸ List.mem_map_of_mem member
    have below := List.mem_range.mp known
    simp only [bne_iff_ne, ne_eq]
    omega
  simp [resultOf, send, same, List.lookup_append, unanswered]

theorem ended_ready (ready : w.Ready) (stop : Bool) (result : Except BuildError Report) :
    (w.ended stop result).Ready where
  free := rfl
  empty := rfl
  settled := by
    simp [ended, send, finish, pressed, started, ready.settled, List.range_succ]

/-- A worker that is ready fulfils an order, however the work ends. -/
theorem fulfils (ready : w.Ready) (work : Work) (s : Site) (o : Order) :
    ∃ d w' s', w.order work o.env o.schedule s = (d, w', s') ∧ w.Fulfils work s o d w' s' := by
  rcases worked : work o.env (fun heard _ => asksStop o.schedule heard) s with ⟨result, lines, s'⟩
  have received : (w.submit o.env o.schedule).2.receive =
      some (⟨w.tickets, o.env, o.schedule⟩, w.started) := by
    rw [ready.submit_eq]
    rfl
  refine ⟨⟨result, lines, List.replicate (submissions o.schedule lines.length) refusal⟩,
    w.ended (asksStop o.schedule lines.length) result, s', ?_, ?_⟩
  · have served := serve_busy received rfl rfl worked
    rw [ready.submit_eq] at served
    have results : (w.started.pressed (asksStop o.schedule lines.length)).finish.results =
        w.results := rfl
    have delivered := ready.resultOf_send results result
    simp only [order, ready.submit_eq, served, delivered, ended]
  · exact {
      accepted := by rw [ready.submit_eq]
      received
      moments := fun heard => by
        rw [after_busy rfl]
        exact ⟨ready.engaged _, by simp [pressed, started]⟩
      worked
      refused := rfl
      answered := rfl
      ready := ready.ended_ready _ _ }

/-- A free worker builds what it is asked to: the build is stopped where its listener cancels, and by
nothing that was cancelled before or is submitted meanwhile. -/
theorem run_builds (ready : w.Ready) (b : Builder) (s : Site) (o : Order) :
    ∃ d w' s', w.run b o.env o.schedule s = (d, w', s') ∧ w.Fulfils (building b) s o d w' s' ∧
      b.build o.env true (fun heard _ => asksStop o.schedule heard) s = (d.result, s') ∧
      d.lines = linesOf d.result := by
  obtain ⟨d, w', s', ordered, fulfilled⟩ := ready.fulfils (building b) s o
  obtain ⟨built, lines, left⟩ : (b.build o.env true (fun heard _ => asksStop o.schedule heard) s).1 =
      d.result ∧ linesOf (b.build o.env true (fun heard _ => asksStop o.schedule heard) s).1 = d.lines ∧
      (b.build o.env true (fun heard _ => asksStop o.schedule heard) s).2 = s' := by
    simpa [building] using fulfilled.worked
  exact ⟨d, w', s', ordered, fulfilled, Prod.ext built left, by rw [← lines, built]⟩

end Ready

/-- Submits every build when the one before has sent its result. -/
def orderAll (work : Work) : List Order → Worker → Site → List Delivery × Worker × Site
  | [], w, s => ([], w, s)
  | o :: rest, w, s =>
    let (d, w, s) := w.order work o.env o.schedule s
    let (others, w, s) := orderAll work rest w s
    (d :: others, w, s)

/-- What becomes of orders that are submitted one after the other: each is fulfilled by the worker
as the one before has left it. -/
inductive FulfilsAll (work : Work) :
    Worker → Site → List Order → List Delivery → Worker → Site → Prop where
  | done (w : Worker) (s : Site) : FulfilsAll work w s [] [] w s
  | next {w s o d w₁ s₁ os ds w₂ s₂} (first : w.Fulfils work s o d w₁ s₁)
      (rest : FulfilsAll work w₁ s₁ os ds w₂ s₂) : FulfilsAll work w s (o :: os) (d :: ds) w₂ s₂

theorem Ready.fulfilsAll (ready : w.Ready) (work : Work) (s : Site) (orders : List Order) :
    ∃ ds w' s', orderAll work orders w s = (ds, w', s') ∧
      FulfilsAll work w s orders ds w' s' ∧ w'.Ready ∧
      w'.results = w.results ++ (ds.map (·.result)).zipIdx.map fun (result, i) =>
        (w.tickets + i, result) := by
  induction orders generalizing w s with
  | nil => exact ⟨[], w, s, rfl, .done w s, ready, by simp⟩
  | cons o rest ih =>
    obtain ⟨d, w₁, s₁, ordered, fulfilled⟩ := ready.fulfils work s o
    obtain ⟨ds, w₂, s₂, others, chain, settled, results⟩ := ih fulfilled.ready s₁
    refine ⟨d :: ds, w₂, s₂, ?_, .next fulfilled chain, settled, ?_⟩
    · simp only [orderAll, ordered, others]
    · have tickets : w₁.tickets = w.tickets + 1 := by
        rw [← fulfilled.ready.length_results, fulfilled.answered]
        simp [ready.length_results]
      rw [results, fulfilled.answered, tickets, List.map_cons, List.zipIdx_cons', List.map_cons,
        List.map_map, List.append_assoc]
      simp [Function.comp_def, Nat.add_comm, Nat.add_left_comm]

/-- However each build ends and whatever its listener does: a new worker fulfils all orders, one at a
time, and is free for the next. -/
theorem orderAll_excludes (work : Work) (s : Site) (orders : List Order) :
    ∃ ds w s', orderAll work orders idle s = (ds, w, s') ∧
      FulfilsAll work idle s orders ds w s' ∧ w.Ready ∧
      w.results = (ds.map (·.result)).zipIdx.map fun (result, ticket) => (ticket, result) := by
  obtain ⟨ds, w, s', ordered, fulfilled, ready, results⟩ := ready_idle.fulfilsAll work s orders
  refine ⟨ds, w, s', ordered, fulfilled, ready, ?_⟩
  simpa [idle] using results

end LayerCache.Worker
