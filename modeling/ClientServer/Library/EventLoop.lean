import Mathlib.Data.List.Basic

/-!
# Event loops

One thread runs the handlers of an event loop, one after the other and in the
order in which they became ready.  A handler posts others and starts operations.
An operation ends when its environment says so or when it is canceled, and then a
handler of it is ready.  The loop returns when it was stopped, or when nothing is
ready and no operation is under way.

A chain is work that goes on from handler to operation to handler.  Its strand is
what carries it at the moment: a chain that never forks has at most one carrier,
and is over when it has none.
-/

namespace EventLoop

/-- What one loop has before it. -/
structure Loop (H O : Type _) where
  ready : List H
  pending : List O
  stopped : Bool
deriving DecidableEq

variable {H O : Type _}

namespace Loop

def initial : Loop H O := ⟨[], [], false⟩

def post (loop : Loop H O) (handler : H) : Loop H O :=
  { loop with ready := loop.ready ++ [handler] }

def start (loop : Loop H O) (op : O) : Loop H O := { loop with pending := loop.pending ++ [op] }

def stop (loop : Loop H O) : Loop H O := { loop with stopped := true }

/-- An operation under way ends. -/
def complete [DecidableEq O] (loop : Loop H O) (op : O) (handler : H) : Option (Loop H O) :=
  if op ∈ loop.pending then some { loop with
    ready := loop.ready ++ [handler]
    pending := loop.pending.erase op }
  else none

/-- The operations that are picked end at once. -/
def cancel (loop : Loop H O) (picks : O → Bool) (handler : O → H) : Loop H O :=
  { loop with
    ready := loop.ready ++ (loop.pending.filter picks).map handler
    pending := loop.pending.filter (fun op => !picks op) }

/-- The handler a loop that is not stopped runs next. -/
def next (loop : Loop H O) : Option (H × Loop H O) :=
  if loop.stopped then none
  else
    match loop.ready with
    | [] => none
    | handler :: ready => some (handler, { loop with ready })

/-- The loop has come to its end. -/
def returns (loop : Loop H O) : Bool :=
  loop.stopped || (loop.ready.isEmpty && loop.pending.isEmpty)

@[simp] theorem post_pending (loop : Loop H O) (handler : H) :
    (loop.post handler).pending = loop.pending := rfl

@[simp] theorem post_stopped (loop : Loop H O) (handler : H) :
    (loop.post handler).stopped = loop.stopped := rfl

@[simp] theorem start_ready (loop : Loop H O) (op : O) : (loop.start op).ready = loop.ready := rfl

@[simp] theorem start_stopped (loop : Loop H O) (op : O) :
    (loop.start op).stopped = loop.stopped := rfl

@[simp] theorem cancel_stopped (loop : Loop H O) (picks : O → Bool) (handler : O → H) :
    (loop.cancel picks handler).stopped = loop.stopped := rfl

theorem complete_eq_some [DecidableEq O] {loop loop' : Loop H O} {op : O} {handler : H} :
    loop.complete op handler = some loop' ↔ op ∈ loop.pending ∧
      { loop with ready := loop.ready ++ [handler], pending := loop.pending.erase op } = loop' := by
  unfold complete
  split
  next h => simp [h]
  next h => simp [h]

theorem next_eq_some {loop loop' : Loop H O} {handler : H} :
    loop.next = some (handler, loop') ↔ loop.stopped = false ∧
      loop.ready = handler :: loop'.ready ∧ loop'.pending = loop.pending ∧
      loop'.stopped = loop.stopped := by
  obtain ⟨ready, pending, stopped⟩ := loop
  obtain ⟨ready', pending', stopped'⟩ := loop'
  cases stopped with
  | true => simp [next]
  | false =>
      cases ready with
      | nil => simp [next]
      | cons h ready =>
          simp only [next, Bool.false_eq_true, if_false, Option.some.injEq, Prod.mk.injEq,
            Loop.mk.injEq, true_and, List.cons.injEq]
          constructor
          · rintro ⟨rfl, rfl, rfl, rfl⟩
            exact ⟨⟨rfl, rfl⟩, rfl, rfl⟩
          · rintro ⟨⟨rfl, rfl⟩, rfl, rfl⟩
            exact ⟨rfl, rfl, rfl, rfl⟩

/-- A loop that is neither stopped nor out of work has a handler to run or waits for
an operation. -/
theorem returns_eq_false_iff {loop : Loop H O} :
    loop.returns = false ↔ loop.stopped = false ∧ (loop.ready = [] → loop.pending ≠ []) := by
  rw [returns, Bool.or_eq_false_iff, Bool.and_eq_false_iff, List.isEmpty_eq_false_iff,
    List.isEmpty_eq_false_iff, or_iff_not_imp_left, not_not]

end Loop

/-! ## The strand of a chain -/

/-- The handlers and the operations that carry a chain on. -/
structure Chain (H O : Type _) where
  handler : H → Bool
  op : O → Bool

/-- What carries the chain at the moment. -/
def strand (chain : Chain H O) (loop : Loop H O) : List (H ⊕ O) :=
  (loop.ready.filter chain.handler).map .inl ++ (loop.pending.filter chain.op).map .inr

section Strand

variable {chain : Chain H O} {loop loop' : Loop H O} {handler : H} {op : O}

theorem strand_eq_nil_iff : strand chain loop = [] ↔
    (∀ handler ∈ loop.ready, chain.handler handler = false) ∧
      ∀ op ∈ loop.pending, chain.op op = false := by
  simp [strand]

@[simp] theorem strand_stop : strand chain loop.stop = strand chain loop := rfl

/-- What is posted and does not carry the chain leaves its strand alone. -/
theorem strand_post_of_not (h : chain.handler handler = false) :
    strand chain (loop.post handler) = strand chain loop := by
  simp [strand, Loop.post, h]

/-- A chain without a carrier is taken up by what is posted. -/
theorem strand_post_of_nil (hnil : strand chain loop = []) (h : chain.handler handler = true) :
    strand chain (loop.post handler) = [.inl handler] := by
  simp only [strand, List.append_eq_nil_iff, List.map_eq_nil_iff] at hnil
  simp [strand, Loop.post, h, hnil.1, hnil.2]

theorem strand_start_of_not (h : chain.op op = false) :
    strand chain (loop.start op) = strand chain loop := by
  simp [strand, Loop.start, h]

theorem strand_start_of_nil (hnil : strand chain loop = []) (h : chain.op op = true) :
    strand chain (loop.start op) = [.inr op] := by
  simp only [strand, List.append_eq_nil_iff, List.map_eq_nil_iff] at hnil
  simp [strand, Loop.start, h, hnil.1, hnil.2]

/-- Operations that do not carry the chain may be canceled. -/
theorem strand_cancel {picks : O → Bool} {handlerOf : O → H}
    (hop : ∀ op, picks op = true → chain.op op = false)
    (hhandler : ∀ op, picks op = true → chain.handler (handlerOf op) = false) :
    strand chain (loop.cancel picks handlerOf) = strand chain loop := by
  have hready : ((loop.pending.filter picks).map handlerOf).filter chain.handler = [] := by
    rw [List.filter_eq_nil_iff]
    intro handler hmem
    obtain ⟨op, hop', rfl⟩ := List.mem_map.mp hmem
    rw [hhandler op (List.mem_filter.mp hop').2]
    exact Bool.false_ne_true
  have hpending : (loop.pending.filter fun op => !picks op).filter chain.op =
      loop.pending.filter chain.op := by
    rw [List.filter_filter]
    refine List.filter_congr fun op _ => ?_
    cases hpicks : picks op with
    | false => simp
    | true => simp [hop op hpicks]
  rw [strand, strand, Loop.cancel, List.filter_append, hready, hpending, List.append_nil]

/-- What a carrier becomes where the operations that are picked end. -/
def canceled (picks : O → Bool) (handlerOf : O → H) : H ⊕ O → H ⊕ O
  | .inl handler => .inl handler
  | .inr op => if picks op then .inl (handlerOf op) else .inr op

/-- An operation that carries the chain and is canceled hands it on to its handler. -/
theorem strand_cancel_le {picks : O → Bool} {handlerOf : O → H}
    (hle : (strand chain loop).length ≤ 1)
    (hhandler : ∀ op, picks op = true → chain.handler (handlerOf op) = chain.op op) :
    strand chain (loop.cancel picks handlerOf) =
      (strand chain loop).map (canceled picks handlerOf) := by
  have hready : ((loop.pending.filter picks).map handlerOf).filter chain.handler =
      ((loop.pending.filter chain.op).filter picks).map handlerOf := by
    rw [List.filter_map, List.filter_filter, List.filter_filter]
    refine congrArg (List.map handlerOf) (List.filter_congr fun op _ => ?_)
    cases hpicks : picks op with
    | false => simp
    | true => simp [hhandler op hpicks]
  have hpending : (loop.pending.filter fun op => !picks op).filter chain.op =
      (loop.pending.filter chain.op).filter fun op => !picks op := List.filter_comm _ _ _
  rw [strand] at hle
  rw [strand, strand, Loop.cancel, List.filter_append, hready, hpending]
  cases hops : loop.pending.filter chain.op with
  | nil => simp [canceled]
  | cons op ops =>
      rw [hops, List.length_append, List.length_map, List.length_map, List.length_cons] at hle
      obtain rfl : ops = [] := List.length_eq_zero_iff.mp (by omega)
      have hnil : loop.ready.filter chain.handler = [] := List.length_eq_zero_iff.mp (by omega)
      rw [hnil]
      cases hpicks : picks op with
      | false => simp [canceled, hpicks]
      | true => simp [canceled, hpicks]

variable (chain) in
/-- The loop runs a carrier of the chain or leaves its strand alone. -/
theorem strand_next (h : loop.next = some (handler, loop')) :
    strand chain loop =
      if chain.handler handler then .inl handler :: strand chain loop' else strand chain loop' := by
  obtain ⟨-, hready, hpending, -⟩ := Loop.next_eq_some.mp h
  rw [strand, strand, hready, hpending, List.filter_cons]
  split
  next => rfl
  next => rfl

/-- A chain that an operation carries has nothing else. -/
theorem strand_eq_inr (hstrand : strand chain loop = [.inr op]) :
    loop.ready.filter chain.handler = [] ∧ loop.pending.filter chain.op = [op] := by
  rw [strand] at hstrand
  cases hready : loop.ready.filter chain.handler with
  | nil =>
      rw [hready, List.map_nil, List.nil_append] at hstrand
      obtain ⟨op', hpending, hop⟩ := List.map_eq_singleton_iff.mp hstrand
      obtain rfl := Sum.inr.inj hop
      exact ⟨rfl, hpending⟩
  | cons first rest =>
      rw [hready] at hstrand
      cases hstrand

variable [DecidableEq O]

/-- An operation that does not carry the chain ends. -/
theorem strand_complete_of_not (hop : chain.op op = false)
    (hhandler : chain.handler handler = false) (h : loop.complete op handler = some loop') :
    strand chain loop' = strand chain loop := by
  obtain ⟨-, rfl⟩ := Loop.complete_eq_some.mp h
  have hpending : (loop.pending.erase op).filter chain.op = loop.pending.filter chain.op := by
    rw [← List.erase_filter, List.erase_of_not_mem]
    intro hmem
    rw [(List.mem_filter.mp hmem).2] at hop
    cases hop
  simp [strand, hhandler, hpending]

/-- The operation that carries the chain hands it on to its handler. -/
theorem strand_complete (hstrand : strand chain loop = [.inr op])
    (hhandler : chain.handler handler = true) (h : loop.complete op handler = some loop') :
    strand chain loop' = [.inl handler] := by
  obtain ⟨-, rfl⟩ := Loop.complete_eq_some.mp h
  obtain ⟨hready, hpending⟩ := strand_eq_inr hstrand
  simp [strand, hhandler, hready, ← List.erase_filter, hpending]

/-- Nothing carries the chain behind an operation that ends without a handler. -/
theorem strand_erase (hstrand : strand chain loop = [.inr op]) :
    strand chain { loop with pending := loop.pending.erase op } = [] := by
  obtain ⟨hready, hpending⟩ := strand_eq_inr hstrand
  simp [strand, hready, ← List.erase_filter, hpending]

end Strand

end EventLoop
