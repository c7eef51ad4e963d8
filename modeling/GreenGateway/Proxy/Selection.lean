import Mathlib.Algebra.Order.BigOperators.Group.List
import GreenGateway.Foundation.Tickets
import GreenGateway.Foundation.Words

/-! Weighted endpoint selection: a ticket of the pool's counter, a cumulative walk over the
eligible endpoints, and another pass when the endpoint's circuit refuses. -/

namespace GreenGateway.Proxy

open Foundation List Tickets

section Pool

structure ProxyEndpoint where
  id : String
  weight : UInt16
  /-- Whether a health check is configured. -/
  healthConfig : Bool
  /-- Whether a circuit breaker is configured. -/
  circuit : Bool
  deriving DecidableEq, Repr

/-- The endpoints of a validated pool. The compiler admits 32 of them, of weight 1000 at most, so
that the weights add up without overflow. -/
structure UpstreamPool where
  endpoints : List ProxyEndpoint
  distinct : (endpoints.map ProxyEndpoint.id).Nodup
  weighted : ∀ endpoint ∈ endpoints, 1 ≤ endpoint.weight.toNat
  bounded : (endpoints.map fun endpoint => endpoint.weight.toNat).sum ≤ u64Max

/-- What a selection reads from outside: endpoint health, which stays as it is during the call,
the endpoints attempted before and, in each of its passes, what the counter and the circuits
answer. -/
structure SelectionInput where
  eligible : ProxyEndpoint → Bool
  attemptedEndpointIds : List String
  fetchAdd : Nat → UInt64
  tryAcquire : Nat → ProxyEndpoint → Bool

/-- The endpoint selected, and what happened on the way. -/
structure Selection where
  selected : Option ProxyEndpoint
  /-- The endpoints whose circuit refused, one for each pass before the last. -/
  refused : List ProxyEndpoint := []
  /-- Whether a walk found no ticket holder. -/
  fellThrough : Bool := false
  deriving DecidableEq, Repr

/-- Health admits the endpoint. -/
def SelectionInput.healthy (input : SelectionInput) (endpoint : ProxyEndpoint) : Bool :=
  !endpoint.healthConfig || input.eligible endpoint

def SelectionInput.fresh (input : SelectionInput) (endpoint : ProxyEndpoint) : Bool :=
  !input.attemptedEndpointIds.contains endpoint.id

def endpointWeight (endpoint : ProxyEndpoint) : Nat := endpoint.weight.toNat

/-- The cumulative walk. -/
def walk (ticket cumulative : Nat) : List ProxyEndpoint → Option ProxyEndpoint
  | [] => none
  | endpoint :: rest =>
    let cumulative := min (cumulative + endpointWeight endpoint) u64Max
    if ticket < cumulative then some endpoint else walk ticket cumulative rest

namespace UpstreamPool

/-- The snapshot a pass is driven from. -/
def eligible (pool : UpstreamPool) (input : SelectionInput) (unavailableCircuits : List String) :
    List ProxyEndpoint :=
  let eligible := pool.endpoints.filter fun endpoint =>
    input.healthy endpoint && !unavailableCircuits.contains endpoint.id
  if eligible.any input.fresh then eligible.filter input.fresh else eligible

/-- The holder of the pass's ticket, or the last eligible endpoint. -/
def choose (input : SelectionInput) (pass : Nat) (eligible : List ProxyEndpoint) :
    Option ProxyEndpoint × Bool :=
  match walk ((input.fetchAdd pass).toNat % total endpointWeight eligible) 0 eligible with
  | some endpoint => (some endpoint, false)
  | none => (eligible.getLast?, true)

end UpstreamPool

end Pool

section Walk

variable {ticket cumulative : Nat} {endpoints : List ProxyEndpoint}

/-- Within the range of the counter the walk finds the ticket's holder. -/
theorem walk_eq_holder (bounded : cumulative + total endpointWeight endpoints ≤ u64Max) :
    walk (cumulative + ticket) cumulative endpoints =
      holder endpointWeight ticket endpoints := by
  induction endpoints generalizing ticket cumulative with
  | nil => rfl
  | cons endpoint rest ih =>
    rw [total_cons] at bounded
    have room : min (cumulative + endpointWeight endpoint) u64Max =
        cumulative + endpointWeight endpoint := by omega
    rw [walk, holder, room]
    by_cases own : ticket < endpointWeight endpoint
    · rw [if_pos own, if_pos (by omega)]
    · have later : cumulative + ticket =
          cumulative + endpointWeight endpoint + (ticket - endpointWeight endpoint) := by omega
      rw [if_neg own, if_neg (by omega), later]
      exact ih (by omega)

theorem mem_of_walk
    {endpoint : ProxyEndpoint} (found : walk ticket cumulative endpoints = some endpoint) :
    endpoint ∈ endpoints := by
  induction endpoints generalizing cumulative with
  | nil => cases found
  | cons first rest ih =>
    rw [walk] at found
    split at found
    · rw [Option.some.inj found]
      exact mem_cons_self
    · exact mem_cons_of_mem _ (ih found)

namespace UpstreamPool

variable {input : SelectionInput} {endpoint : ProxyEndpoint} {pool : UpstreamPool}
  {unavailable : List String}

theorem mem_of_choose {pass : Nat} {eligible : List ProxyEndpoint} {fell : Bool}
    (chosen : choose input pass eligible = (some endpoint, fell)) : endpoint ∈ eligible := by
  unfold choose at chosen
  split at chosen
  · case _ found =>
    cases chosen
    exact mem_of_walk found
  · exact mem_of_getLast? (Prod.mk.inj chosen).1

theorem eligible_sublist (pool : UpstreamPool) (input : SelectionInput)
    (unavailable : List String) :
    (pool.eligible input unavailable).Sublist (pool.endpoints.filter fun endpoint =>
      input.healthy endpoint && !unavailable.contains endpoint.id) := by
  unfold eligible
  dsimp only
  split
  · exact filter_sublist
  · exact .refl _

theorem mem_of_eligible (listed : endpoint ∈ pool.eligible input unavailable) :
    endpoint ∈ pool.endpoints ∧ input.healthy endpoint = true ∧ endpoint.id ∉ unavailable := by
  have kept := (eligible_sublist pool input unavailable).subset listed
  simpa using kept

/-- The endpoints whose circuits have not refused in this call. -/
def remaining (pool : UpstreamPool) (unavailable : List String) : List ProxyEndpoint :=
  pool.endpoints.filter fun endpoint => !unavailable.contains endpoint.id

theorem remaining_cons_lt (listed : endpoint ∈ pool.endpoints)
    (available : endpoint.id ∉ unavailable) :
    (pool.remaining (endpoint.id :: unavailable)).length < (pool.remaining unavailable).length := by
  have fewer : pool.remaining (endpoint.id :: unavailable) =
      (pool.remaining unavailable).filter fun other => other.id != endpoint.id := by
    rw [remaining, remaining, filter_filter]
    apply filter_congr
    intro other _
    rw [Bool.eq_iff_iff]
    simp
  rw [fewer]
  refine List.length_filter_lt_length_iff_exists.mpr ⟨endpoint, ?_, by simp⟩
  simpa [remaining] using ⟨listed, available⟩

end UpstreamPool

end Walk

section Select

namespace UpstreamPool

/-- `select_endpoint_avoiding`, from a pass on. -/
def selectFrom (pool : UpstreamPool) (input : SelectionInput) (pass : Nat)
    (unavailableCircuits : List String) : Selection :=
  let eligible := pool.eligible input unavailableCircuits
  if total endpointWeight eligible = 0 then { selected := none }
  else
    match chosen : choose input pass eligible with
    | (none, fell) => { selected := none, fellThrough := fell }
    | (some endpoint, fell) =>
      if !endpoint.circuit || input.tryAcquire pass endpoint then
        { selected := some endpoint, fellThrough := fell }
      else
        let later := selectFrom pool input (pass + 1) (endpoint.id :: unavailableCircuits)
        { later with
          refused := endpoint :: later.refused
          fellThrough := fell || later.fellThrough }
termination_by (pool.remaining unavailableCircuits).length
decreasing_by
  obtain ⟨listed, -, available⟩ := mem_of_eligible (mem_of_choose chosen)
  exact remaining_cons_lt listed available

def selectEndpointAvoiding (pool : UpstreamPool) (input : SelectionInput) : Selection :=
  pool.selectFrom input 0 []

/-- While some weight is left the walk finds an endpoint. -/
theorem choose_eq (pool : UpstreamPool) (input : SelectionInput) (pass : Nat)
    (unavailable : List String)
    (some_ : total endpointWeight (pool.eligible input unavailable) ≠ 0) :
    choose input pass (pool.eligible input unavailable) =
        (holder endpointWeight ((input.fetchAdd pass).toNat %
          total endpointWeight (pool.eligible input unavailable))
          (pool.eligible input unavailable), false) ∧
      ∃ endpoint, holder endpointWeight ((input.fetchAdd pass).toNat %
        total endpointWeight (pool.eligible input unavailable))
        (pool.eligible input unavailable) = some endpoint := by
  have part : (pool.eligible input unavailable).Sublist pool.endpoints :=
    (eligible_sublist pool input unavailable).trans filter_sublist
  have bounded : total endpointWeight (pool.eligible input unavailable) ≤ u64Max :=
    ((part.map endpointWeight).sum_le_sum fun _ _ => Nat.zero_le _).trans pool.bounded
  have drawn := Nat.mod_lt (input.fetchAdd pass).toNat (Nat.pos_of_ne_zero some_)
  obtain ⟨endpoint, held⟩ := Option.isSome_iff_exists.mp (holder_isSome drawn)
  have found : walk (0 + (input.fetchAdd pass).toNat %
      total endpointWeight (pool.eligible input unavailable)) 0
      (pool.eligible input unavailable) = _ := walk_eq_holder (by rwa [Nat.zero_add])
  rw [Nat.zero_add, held] at found
  refine ⟨?_, endpoint, held⟩
  rw [choose, found, held]

variable {pool : UpstreamPool} {input : SelectionInput} {unavailable : List String}

theorem eligible_eq_nil
    (none_ : total endpointWeight (pool.eligible input unavailable) = 0) :
    pool.eligible input unavailable = [] := by
  rw [eq_nil_iff_forall_not_mem]
  intro endpoint listed
  have weighs := pool.weighted endpoint (mem_of_eligible listed).1
  have counted : endpointWeight endpoint ≤ total endpointWeight
      (pool.eligible input unavailable) :=
    single_le_sum (fun _ _ => Nat.zero_le _) _ (mem_map_of_mem listed)
  rw [endpointWeight] at counted
  omega

theorem refused_of_eligible_eq_nil (none_ : pool.eligible input unavailable = [])
    {endpoint : ProxyEndpoint} (listed : endpoint ∈ pool.endpoints)
    (healthy : input.healthy endpoint = true) : endpoint.id ∈ unavailable := by
  by_contra available
  have kept : endpoint ∈ pool.endpoints.filter fun endpoint =>
      input.healthy endpoint && !unavailable.contains endpoint.id := by
    simpa using ⟨listed, healthy, available⟩
  unfold eligible at none_
  dsimp only at none_
  split at none_
  · case _ any =>
    obtain ⟨other, present, fresh⟩ := List.any_eq_true.mp any
    have remains := List.mem_filter.mpr ⟨present, fresh⟩
    rw [none_] at remains
    cases remains
  · rw [none_] at kept
    cases kept

/-- What one selection can come to, from a pass on. -/
structure Answers (pool : UpstreamPool) (input : SelectionInput) (pass : Nat)
    (unavailable : List String) (selection : Selection) : Prop where
  passes : selection.refused.length ≤ (pool.remaining unavailable).length
  held : selection.fellThrough = false
  refused : ∀ index endpoint, selection.refused[index]? = some endpoint →
    endpoint ∈ pool.endpoints ∧ endpoint.circuit = true ∧
      input.tryAcquire (pass + index) endpoint = false
  selected : ∀ endpoint, selection.selected = some endpoint →
    endpoint ∈ pool.endpoints ∧ input.healthy endpoint = true ∧ endpoint.id ∉ unavailable ∧
      endpoint ∉ selection.refused ∧
      (endpoint.circuit = false ∨
        input.tryAcquire (pass + selection.refused.length) endpoint = true)
  none_ : selection.selected = none → ∀ endpoint ∈ pool.endpoints, input.healthy endpoint = true →
    endpoint.id ∈ unavailable ∨ endpoint ∈ selection.refused

theorem selectFrom_answers (pool : UpstreamPool) (input : SelectionInput) (pass : Nat)
    (unavailable : List String) :
    pool.Answers input pass unavailable (pool.selectFrom input pass unavailable) := by
  fun_induction selectFrom pool input pass unavailable with
  | case1 pass unavailable eligible none_ =>
    refine ⟨Nat.zero_le _, rfl, nofun, nofun, fun _ endpoint listed healthy => .inl ?_⟩
    exact refused_of_eligible_eq_nil (eligible_eq_nil none_) listed healthy
  | case2 pass unavailable eligible some_ fell chosen =>
    obtain ⟨found, endpoint, held⟩ := choose_eq pool input pass unavailable some_
    rw [held] at found
    cases found.symm.trans chosen
  | case3 pass unavailable eligible some_ endpoint fell chosen takes =>
    obtain ⟨found, -⟩ := choose_eq pool input pass unavailable some_
    obtain ⟨listed, healthy, available⟩ := mem_of_eligible (mem_of_choose chosen)
    refine ⟨Nat.zero_le _, ?_, nofun, ?_, nofun⟩
    · exact (Prod.mk.inj (found.symm.trans chosen)).2.symm
    · rintro _ ⟨⟩
      exact ⟨listed, healthy, available, not_mem_nil, by simpa using takes⟩
  | case4 pass unavailable eligible some_ endpoint fell chosen refuses later ih =>
    obtain ⟨found, -⟩ := choose_eq pool input pass unavailable some_
    obtain ⟨listed, healthy, available⟩ := mem_of_eligible (mem_of_choose chosen)
    have fewer := remaining_cons_lt listed available
    have steady : fell = false := (Prod.mk.inj (found.symm.trans chosen)).2.symm
    have own : endpoint.circuit = true ∧ input.tryAcquire pass endpoint = false := by
      simpa using refuses
    obtain ⟨passes, held, refused, selected, none_⟩ := ih
    refine ⟨?_, ?_, ?_, ?_, ?_⟩
    · rw [length_cons]
      exact passes.trans_lt fewer
    · rw [steady, Bool.false_or]
      exact held
    · intro index other entry
      cases index with
      | zero =>
        cases Option.some.inj entry
        exact ⟨listed, own⟩
      | succ index =>
        obtain ⟨present, broken, refusal⟩ := refused index other entry
        exact ⟨present, broken, by rwa [Nat.add_right_comm] at refusal⟩
    · intro other chosenLater
      obtain ⟨present, well, free, unrefused, takes⟩ := selected other chosenLater
      refine ⟨present, well, fun before => free (mem_cons_of_mem _ before), ?_, ?_⟩
      · rw [mem_cons, not_or]
        exact ⟨fun same => free (same ▸ mem_cons_self), unrefused⟩
      · rwa [length_cons, Nat.add_comm _ 1, ← Nat.add_assoc]
    · intro nothing other present well
      rcases none_ nothing other present well with before | after
      · rcases List.mem_cons.mp before with same | before
        · refine .inr (List.mem_cons.mpr (.inl ?_))
          exact inj_on_of_nodup_map pool.distinct present listed same
        · exact .inl before
      · exact .inr (mem_cons_of_mem _ after)

end UpstreamPool

end Select

section Fairness

/-- How often a selection drew from the counter: not in a pass with nothing eligible. -/
def Selection.draws (selection : Selection) : Nat :=
  selection.refused.length + if selection.selected.isSome || selection.fellThrough then 1 else 0

/-- The input of a selection that has the counter to itself. -/
def SelectionInput.drawingFrom (input : SelectionInput) (nextSelection : UInt64) : SelectionInput :=
  { input with fetchAdd := fun pass => nextSelection + UInt64.ofNat pass }

namespace UpstreamPool

/-- The endpoints a selection is among while every circuit accepts. -/
def candidates (pool : UpstreamPool) (input : SelectionInput) : List ProxyEndpoint :=
  pool.eligible input []

/-- Consecutive selections. -/
def selectMany (pool : UpstreamPool) (input : SelectionInput) (nextSelection : UInt64) :
    Nat → List (Option ProxyEndpoint)
  | 0 => []
  | more + 1 =>
    let selection := pool.selectEndpointAvoiding (input.drawingFrom nextSelection)
    selection.selected ::
      pool.selectMany input (nextSelection + UInt64.ofNat selection.draws) more

variable {pool : UpstreamPool} {input : SelectionInput}

theorem mem_candidates_iff {endpoint : ProxyEndpoint} : endpoint ∈ pool.candidates input ↔
      endpoint ∈ pool.endpoints ∧ input.healthy endpoint = true ∧
        (endpoint.id ∉ input.attemptedEndpointIds ∨
          ∀ other ∈ pool.endpoints, input.healthy other = true →
            other.id ∈ input.attemptedEndpointIds) := by
  unfold candidates eligible
  simp only [contains_nil, Bool.not_false, Bool.and_true]
  split
  · case _ any =>
    obtain ⟨other, present, fresh⟩ := List.any_eq_true.mp any
    have attempted : ¬ ∀ other ∈ pool.endpoints, input.healthy other = true →
        other.id ∈ input.attemptedEndpointIds := by
      intro all
      obtain ⟨listed, healthy⟩ := List.mem_filter.mp present
      simpa [SelectionInput.fresh] using absurd (all other listed healthy)
        (by simpa [SelectionInput.fresh] using fresh)
    simp only [mem_filter, attempted, or_false, and_assoc, SelectionInput.fresh]
    simp
  · case _ stale =>
    have attempted : ∀ other ∈ pool.endpoints, input.healthy other = true →
        other.id ∈ input.attemptedEndpointIds := by
      intro other listed healthy
      by_contra fresh
      refine stale (List.any_eq_true.mpr ⟨other, List.mem_filter.mpr ⟨listed, healthy⟩, ?_⟩)
      simpa [SelectionInput.fresh] using fresh
    simp only [mem_filter]
    exact ⟨fun kept => ⟨kept.1, kept.2, .inr attempted⟩, fun kept => ⟨kept.1, kept.2.1⟩⟩

theorem candidates_nodup (pool : UpstreamPool) (input : SelectionInput) :
    (pool.candidates input).Nodup := by
  have part : (pool.candidates input).Sublist pool.endpoints :=
    (eligible_sublist pool input []).trans filter_sublist
  exact part.nodup (List.Nodup.of_map _ pool.distinct)

section

variable (accepts : ∀ pass endpoint, input.tryAcquire pass endpoint = true)

include accepts

section

variable (some_ : total endpointWeight (pool.candidates input) ≠ 0)

include some_

/-- A selection whose circuit accepts is the holder of its first ticket. -/
theorem select_accepting :
    ∃ endpoint, pool.selectEndpointAvoiding input = { selected := some endpoint } ∧
      holder endpointWeight ((input.fetchAdd 0).toNat %
        total endpointWeight (pool.candidates input)) (pool.candidates input) =
          some endpoint := by
  obtain ⟨found, endpoint, held⟩ := choose_eq pool input 0 [] some_
  refine ⟨endpoint, ?_, held⟩
  rw [held] at found
  rw [candidates] at some_
  rw [selectEndpointAvoiding, selectFrom]
  dsimp only
  rw [if_neg some_]
  split
  · case _ fell nothing => cases nothing.symm.trans found
  · case _ other fell chosen =>
    obtain ⟨same, rfl⟩ := Prod.mk.inj (chosen.symm.trans found)
    obtain rfl := Option.some.inj same
    rw [accepts, Bool.or_true, if_pos rfl]

theorem selectMany_eq {nextSelection : UInt64}
    {count : Nat} (unwrapped : nextSelection.toNat + count ≤ 2 ^ 64) :
    pool.selectMany input nextSelection count = (List.range count).map fun draw =>
      holder endpointWeight ((nextSelection.toNat + draw) %
        total endpointWeight (pool.candidates input)) (pool.candidates input) := by
  induction count generalizing nextSelection with
  | zero => rfl
  | succ count ih =>
    have selects : ∃ endpoint, pool.selectEndpointAvoiding (input.drawingFrom nextSelection) =
        { selected := some endpoint } ∧
        holder endpointWeight (((input.drawingFrom nextSelection).fetchAdd 0).toNat %
          total endpointWeight (pool.candidates input)) (pool.candidates input) =
            some endpoint := select_accepting accepts some_
    obtain ⟨endpoint, selection, held⟩ := selects
    have first : ((input.drawingFrom nextSelection).fetchAdd 0).toNat = nextSelection.toNat + 0 := by
      simp [SelectionInput.drawingFrom]
    rw [selectMany, selection, range_succ_eq_map, map_cons, map_map]
    rw [first] at held
    rw [held]
    congr 1
    by_cases last : count = 0
    · subst last
      rfl
    · have next : (nextSelection + UInt64.ofNat
          ({ selected := some endpoint } : Selection).draws).toNat = nextSelection.toNat + 1 := by
        simp only [Selection.draws, length_nil, Option.isSome_some, Bool.true_or, if_true,
          Nat.zero_add, UInt64.toNat_add, UInt64.toNat_ofNat']
        omega
      rw [ih (by omega), next]
      apply map_congr_left
      intro draw _
      simp only [Function.comp_apply, Nat.succ_eq_add_one, Nat.add_assoc, Nat.add_comm 1]

end

end

/-- Over as many consecutive selections as the candidates weigh, each of them is selected as often
as it weighs; and whatever the counter and the circuits answer, a selection ends after at most one
refusal for each endpoint, never falls through its walk, never returns an endpoint that its health
or its circuit excludes, and returns nothing only when every healthy endpoint's circuit refused. -/
theorem select_fair_total (pool : UpstreamPool) (input : SelectionInput) :
    (∀ endpoint, endpoint ∈ pool.candidates input ↔
      endpoint ∈ pool.endpoints ∧ input.healthy endpoint = true ∧
        (endpoint.id ∉ input.attemptedEndpointIds ∨
          ∀ other ∈ pool.endpoints, input.healthy other = true →
            other.id ∈ input.attemptedEndpointIds)) ∧
    ((∀ pass endpoint, input.tryAcquire pass endpoint = true) → ∀ nextSelection : UInt64,
      nextSelection.toNat + total endpointWeight (pool.candidates input) ≤ 2 ^ 64 →
        ∀ endpoint ∈ pool.candidates input,
          (pool.selectMany input nextSelection
            (total endpointWeight (pool.candidates input))).count (some endpoint) =
              endpoint.weight.toNat) ∧
    let selection := pool.selectEndpointAvoiding input
    selection.refused.length + 1 ≤ pool.endpoints.length + 1 ∧ selection.fellThrough = false ∧
      (∀ pass endpoint, selection.refused[pass]? = some endpoint →
        endpoint.circuit = true ∧ input.tryAcquire pass endpoint = false) ∧
      (∀ endpoint, selection.selected = some endpoint →
        endpoint ∈ pool.endpoints ∧ input.healthy endpoint = true ∧
          endpoint ∉ selection.refused ∧
          (endpoint.circuit = false ∨
            input.tryAcquire selection.refused.length endpoint = true)) ∧
      (selection.selected = none → ∀ endpoint ∈ pool.endpoints, input.healthy endpoint = true →
        endpoint ∈ selection.refused) := by
  refine ⟨fun endpoint => mem_candidates_iff, ?_, ?_⟩
  · intro accepts nextSelection unwrapped endpoint listed
    have some_ : total endpointWeight (pool.candidates input) ≠ 0 := by
      intro none_
      have empty : pool.candidates input = [] := eligible_eq_nil none_
      rw [empty] at listed
      cases listed
    rw [selectMany_eq accepts some_ unwrapped, count_eq_countP, countP_map]
    change _ = endpointWeight endpoint
    refine Eq.trans ?_ (count_window (pool.candidates_nodup input) listed
      nextSelection.toNat)
    rw [Nat.count]
    congr 1
    funext draw
    rw [Function.comp_apply, Bool.eq_iff_iff, beq_iff_eq, decide_eq_true_iff]
  · have answers := pool.selectFrom_answers input 0 []
    have all : (pool.remaining []).length = pool.endpoints.length := by simp [remaining]
    refine ⟨by have := answers.passes; rw [selectEndpointAvoiding]; omega, answers.held, ?_, ?_, ?_⟩
    · intro pass endpoint entry
      have facts := (answers.refused pass endpoint entry).2
      rwa [Nat.zero_add] at facts
    · intro endpoint chosen
      obtain ⟨listed, healthy, -, unrefused, takes⟩ := answers.selected endpoint chosen
      rw [Nat.zero_add] at takes
      exact ⟨listed, healthy, unrefused, takes⟩
    · intro nothing endpoint listed healthy
      exact (answers.none_ nothing endpoint listed healthy).resolve_left not_mem_nil

/-- An endpoint without a health check or a circuit. -/
def sampleEndpoint (id : String) (weight : UInt16) : ProxyEndpoint :=
  { id, weight, healthConfig := false, circuit := false }

def samplePool : UpstreamPool where
  endpoints := [sampleEndpoint "a" 3, sampleEndpoint "b" 1]
  distinct := by decide
  weighted := by decide
  bounded := by decide

def sampleInput : SelectionInput where
  eligible _ := false
  attemptedEndpointIds := []
  fetchAdd _ := 0
  tryAcquire _ _ := true

theorem select_fair_total_sample :
    (samplePool.selectMany sampleInput 5 4).count (some (sampleEndpoint "a" 3)) = 3 := by
  obtain ⟨-, fair, -⟩ := select_fair_total samplePool sampleInput
  have weight : total endpointWeight (samplePool.candidates sampleInput) = 4 := by decide
  have selected := fair (fun _ _ => rfl) 5 (by rw [weight]; decide) (sampleEndpoint "a" 3)
    (by decide)
  rwa [weight] at selected

end UpstreamPool

end Fairness

end GreenGateway.Proxy
