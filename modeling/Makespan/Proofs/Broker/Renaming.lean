import Makespan.Proofs.Broker.Opening
import Makespan.Proofs.Pool.Ranking

/-! Workers under other names. Crews of one size are paired by rank; what two runs leave behind is
compared with each worker called by its rank, and without the answers to creation requests, of which
a run with more failures has more. -/

namespace Makespan

/-- Two crews of one size, each in the order of its ranks. -/
structure Pairing where
  left : List WorkerId
  right : List WorkerId
  left_nodup : left.Nodup
  right_nodup : right.Nodup
  length_eq : left.length = right.length

namespace Pairing

variable {π : Pairing} {v w v' w' : WorkerId}

/-- Workers of one rank. -/
structure Peers (π : Pairing) (v w : WorkerId) : Prop where
  left : v ∈ π.left
  right : w ∈ π.right
  rank : π.left.idxOf v = π.right.idxOf w

theorem Peers.eq_iff (h : π.Peers v w) (h' : π.Peers v' w') : v' = v ↔ w' = w := by
  rw [← List.idxOf_inj h'.left, ← List.idxOf_inj h'.right, h.rank, h'.rank]

theorem peers_getElem {i : Nat} (hl : i < π.left.length) (hr : i < π.right.length) :
    π.Peers π.left[i] π.right[i] where
  left := List.getElem_mem hl
  right := List.getElem_mem hr
  rank := by rw [π.left_nodup.idxOf_getElem, π.right_nodup.idxOf_getElem]

theorem forall₂_peers (π : Pairing) : List.Forall₂ π.Peers π.left π.right :=
  List.forall₂_iff_get.mpr ⟨π.length_eq, fun _ hl hr => peers_getElem hl hr⟩

theorem exists_peer_of_left (h : v ∈ π.left) : ∃ w, π.Peers v w := by
  obtain ⟨i, hi, rfl⟩ := List.mem_iff_getElem.mp h
  exact ⟨_, peers_getElem hi (π.length_eq ▸ hi)⟩

theorem exists_peer_of_right (h : w ∈ π.right) : ∃ v, π.Peers v w := by
  obtain ⟨i, hi, rfl⟩ := List.mem_iff_getElem.mp h
  exact ⟨_, peers_getElem (π.length_eq ▸ hi) hi⟩

/-- What agrees rank by rank agrees on workers of one rank. -/
theorem Peers.eq_of_map_eq {α : Type} {f g : WorkerId → α} (hvw : π.Peers v w)
    (h : π.left.map f = π.right.map g) : f v = g w := by
  have hget := congrArg (·[π.left.idxOf v]?) h
  simp only [List.getElem?_map] at hget
  rw [List.getElem?_idxOf hvw.left, hvw.rank, List.getElem?_idxOf hvw.right] at hget
  exact Option.some.inj hget

theorem map_rank_eq {vs ws : List WorkerId} (h : List.Forall₂ π.Peers vs ws) :
    ws.map π.right.idxOf = vs.map π.left.idxOf := by
  induction h with
  | nil => rfl
  | cons hvw _ ih => rw [List.map_cons, List.map_cons, hvw.rank, ih]

end Pairing

/-! ## Traces -/

namespace TraceEntry

def rename (name : WorkerId → Nat) : TraceEntry → TraceEntry
  | acknowledged time worker speed created => acknowledged time (name worker) speed created
  | cycle time ready idle => cycle time ready (idle.map name)
  | dispatch time task worker => dispatch time task (name worker)
  | completion time task worker start finish executed =>
    completion time task (name worker) start finish executed
  | finished time executed => finished time executed

variable {name : WorkerId → Nat}

theorem dispatched?_rename (e : TraceEntry) : (e.rename name).dispatched? = e.dispatched? := by
  cases e <;> rfl

theorem completed?_rename (e : TraceEntry) : (e.rename name).completed? = e.completed? := by
  cases e <;> rfl

end TraceEntry

/-- A trace without the answers to creation requests and with other names for the workers. -/
def renamed (name : WorkerId → Nat) (trace : Array TraceEntry) : List TraceEntry :=
  (trace.toList.filter fun e => !e.isAnswer).map (·.rename name)

section Renamed

variable {name : WorkerId → Nat} {trace : Array TraceEntry}

theorem renamed_push {e : TraceEntry} (he : e.isAnswer = false) :
    renamed name (trace.push e) = renamed name trace ++ [e.rename name] := by
  simp [renamed, List.filter_append, he]

theorem renamed_of_answers (h : ∀ e ∈ trace.toList, e.isAnswer = true) :
    renamed name trace = [] := by
  have hnone : trace.toList.filter (fun e => !e.isAnswer) = [] :=
    List.filter_eq_nil_iff.mpr fun e he => by simp [h e he]
  rw [renamed, hnone]
  rfl

/-- A view that neither an answer nor a name matters for. -/
theorem filterMap_renamed {α : Type} {view : TraceEntry → Option α}
    (hname : ∀ e, view (e.rename name) = view e)
    (hanswer : ∀ e, e.isAnswer = true → view e = none) :
    (renamed name trace).filterMap view = trace.toList.filterMap view := by
  rw [renamed, List.filterMap_map, List.filterMap_filter]
  congr 1
  funext e
  cases he : e.isAnswer with
  | true => simp [hanswer e he]
  | false => simp [hname]

theorem dispatched_renamed :
    (renamed name trace).filterMap (·.dispatched?) = trace.toList.filterMap (·.dispatched?) :=
  filterMap_renamed TraceEntry.dispatched?_rename fun e he => by cases e <;> first | rfl | cases he

theorem completed_renamed :
    (renamed name trace).filterMap (·.completed?) = trace.toList.filterMap (·.completed?) :=
  filterMap_renamed TraceEntry.completed?_rename fun e he => by cases e <;> first | rfl | cases he

theorem countP_isCycle_renamed :
    (renamed name trace).countP (·.isCycle) = trace.countP (·.isCycle) := by
  rw [renamed, List.countP_map, List.countP_filter, ← Array.countP_toList]
  congr 1
  funext e
  cases e <;> rfl

end Renamed

/-- Reports that tell the same but for the names of the workers. -/
structure Report.SameUnder (name name' : WorkerId → Nat) (r r' : Report) : Prop where
  workflow : r'.workflow = r.workflow
  policy : r'.policy = r.policy
  makespan : r'.makespan = r.makespan
  lastCompletion : r'.lastCompletion = r.lastCompletion
  executed : r'.executed = r.executed
  cycles : r'.cycles = r.cycles
  dispatchOrder : r'.dispatchOrder = r.dispatchOrder
  completionOrder : r'.completionOrder = r.completionOrder
  trace : renamed name' r'.trace = renamed name r.trace

/-- What a report reads off its trace does not depend on the names. -/
theorem Report.SameUnder.of_trace {name name' : WorkerId → Nat} {r r' : Report}
    (workflow : r'.workflow = r.workflow) (policy : r'.policy = r.policy)
    (makespan : r'.makespan = r.makespan) (lastCompletion : r'.lastCompletion = r.lastCompletion)
    (executed : r'.executed = r.executed)
    (trace : renamed name' r'.trace = renamed name r.trace) : r.SameUnder name name' r' where
  workflow := workflow
  policy := policy
  makespan := makespan
  lastCompletion := lastCompletion
  executed := executed
  cycles := calc
    r'.cycles = (renamed name' r'.trace).countP (·.isCycle) := countP_isCycle_renamed.symm
    _ = (renamed name r.trace).countP (·.isCycle) := by rw [trace]
    _ = r.cycles := countP_isCycle_renamed
  dispatchOrder := calc
    r'.dispatchOrder = (renamed name' r'.trace).filterMap (·.dispatched?) := dispatched_renamed.symm
    _ = (renamed name r.trace).filterMap (·.dispatched?) := by rw [trace]
    _ = r.dispatchOrder := dispatched_renamed
  completionOrder := calc
    r'.completionOrder = (renamed name' r'.trace).filterMap (·.completed?) := completed_renamed.symm
    _ = (renamed name r.trace).filterMap (·.completed?) := by rw [trace]
    _ = r.completionOrder := completed_renamed
  trace := trace

end Makespan
