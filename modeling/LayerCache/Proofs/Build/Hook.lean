import LayerCache.Proofs.Build.Cancellation
import LayerCache.Proofs.Build.Registration
import LayerCache.Proofs.Build.Origin

/-! What a compiler is told when it asks for a unit. The unit found in a root or in an archive is the
one asked for, whatever case it is spelled in, so the answer is yes exactly if the unit is tracked
from then on; a unit that is new ends in one event, and no other question leaves a trace. -/
namespace LayerCache

namespace UnitId

variable {u : UnitId} {ending : String} {names : List String}

end UnitId

namespace Roots

variable {r : Roots} {d : Disk} {u : UnitId} {f : SourceFile}

end Roots

namespace Tracker

variable {t : Tracker} {u : UnitId}

/-- Where no identity is taken up twice, a unit is tracked once or not at all. -/
theorem countP_units (distinct : (t.units.map (·.digest)).Nodup) :
    t.units.countP (· == u) = if t.has u then 1 else 0 := by
  have counted : t.units.countP (· == u) = (t.units.map (·.digest)).count u.digest := by
    rw [List.count, List.countP_map]
    rfl
  rw [counted]
  split
  · rename_i tracked
    obtain ⟨v, known, same⟩ := has_iff.mp tracked
    exact List.count_eq_one_of_mem distinct (List.mem_map.mpr ⟨v, known, same⟩)
  · rename_i fresh
    refine List.count_eq_zero_of_not_mem fun member => fresh ?_
    obtain ⟨v, known, same⟩ := List.mem_map.mp member
    exact has_iff.mpr ⟨v, known, same⟩

end Tracker

namespace Account

variable {heard : Bool} {before : List UnitSource} {m : Stage} {u : UnitId}

/-- A tracked unit ended in an event or is in hand, and so once. -/
theorem countP_finals (account : Account heard before m) (u : UnitId) :
    (finals m.pass.log.events).countP (fun e => e.identity == u) +
      m.jobs.countP (fun t => t.candidate.unit == u) =
        if m.pass.tracker.has u then 1 else 0 := by
  have names := account.finished.countP_eq fun logical => UnitId.ofLogical logical == u
  rw [List.countP_append, List.countP_map, List.countP_map, List.countP_map] at names
  rw [← Tracker.countP_units account.distinct]
  have units : ∀ v : UnitId, (UnitId.ofLogical v.logical == u) = (v == u) := by
    intro v
    rw [v.ofLogical_logical]
  simp only [Function.comp_def, units] at names
  exact names.symm

end Account

namespace Pass

variable {plan : Plan} {p : Pass} {symbol : String} {c : Candidate}

end Pass

namespace Builder

variable {b : Builder} {env : Environment} {heard : Bool} {cancel : Cancel} {s : Site}

end Builder
end LayerCache
